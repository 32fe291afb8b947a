import ProcessChart.Json.Decode

/-!
The status of a node in a run.
-/
namespace ProcessChart

inductive RunStatus where
  | pending
  | running
  | success
  | failure
deriving DecidableEq, Repr

namespace RunStatus

def name : RunStatus → String
  | pending => "pending"
  | running => "running"
  | success => "success"
  | failure => "failure"

def ofName? : String → Option RunStatus
  | "pending" => some pending
  | "running" => some running
  | "success" => some success
  | "failure" => some failure
  | _ => none

def names : List String := ["pending", "running", "success", "failure"]

/-- A node has come to an outcome. -/
def isTerminal : RunStatus → Bool
  | pending => false
  | running => false
  | success => true
  | failure => true

def read : Json → Except Fault RunStatus := Json.variant names ofName?

theorem ofName?_name (s : RunStatus) : ofName? s.name = some s := by
  cases s <;> rfl

end RunStatus

end ProcessChart
