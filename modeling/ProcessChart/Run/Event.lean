import ProcessChart.Run.Status

/-!
An event of a run: a node came to a status at some time. An event that is an
outcome also tells how long the node took.
-/
namespace ProcessChart

structure RunEvent where
  node : String
  status : RunStatus
  /-- In milliseconds. -/
  time : Nat
  duration : Option Nat
  message : Option String
deriving DecidableEq, Repr

namespace RunEvent

def schema : Schema Json RunEvent where
  name := "RunEvent"
  initial := ⟨"", .pending, 0, none, none⟩
  fields :=
    [⟨"elementId", .required, fun v e => return { e with node := ← Source.string v }⟩,
     ⟨"status", .required, fun v e => return { e with status := ← RunStatus.read v }⟩,
     ⟨"timestamp", .required,
      fun v e => return { e with time := ← Source.natural .unsigned64 v }⟩,
     ⟨"durationMs", .optional,
      fun v e => return { e with duration := ← Source.optional (Source.natural .unsigned64) v }⟩,
     ⟨"message", .optional,
      fun v e => return { e with message := ← Source.optional Source.string v }⟩]

/-- An absent duration or message is left out. -/
def toJson (e : RunEvent) : Json :=
  .object <|
    [("elementId", .string e.node), ("status", .string e.status.name), ("timestamp", .nat e.time)] ++
    (e.duration.toList.map fun d => ("durationMs", .nat d)) ++
    e.message.toList.map fun m => ("message", .string m)

end RunEvent

end ProcessChart
