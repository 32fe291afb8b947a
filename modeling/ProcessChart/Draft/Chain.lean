import ProcessChart.ProcessGraph.Basic
import ProcessChart.Draft.Steps
import ProcessChart.Decimal.Whole

/-!
Drafting a process from a description, without any service: one task for every
step, in a chain from a start event to an end event.
-/
namespace ProcessChart.Draft

/-- The description that stands in for an empty one. -/
def standardPrompt : String := "Start; Schritt; Ende"

/-- Ids are numbered from one. -/
def numbered (stem : String) (index : Nat) : String := stem ++ "_" ++ Decimal.natText (index + 1)

def startId : String := numbered "StartEvent" 0

/-- The id of the node in front of the node at `index` behind the start. -/
def idBefore (index : Nat) : String :=
  if index = 0 then startId else numbered "Activity" (index - 1)

def taskOf (index : Nat) (step : String) : Node := ⟨numbered "Activity" index, .task, some step⟩

def flowTo (index : Nat) (target : String) : Flow :=
  ⟨numbered "Flow" index, idBefore index, target⟩

def chain (steps : List String) : ProcessGraph :=
  let last := numbered "EndEvent" steps.length
  { id := "Process_1"
    name := some "Generated Process"
    nodes :=
      [⟨startId, .startEvent, some "Start"⟩] ++ steps.mapIdx taskOf ++
        [⟨last, .endEvent, some "Ende"⟩]
    flows :=
      (steps.mapIdx fun index _ => flowTo index (numbered "Activity" index)) ++
        [flowTo steps.length last] }

def ofPrompt (prompt : String) : ProcessGraph :=
  chain (steps (if prompt = "" then standardPrompt else prompt))

end ProcessChart.Draft
