import ProcessChart.Run.Lifecycle
import ProcessChart.Run.Draws

/-!
A demonstration run goes through the nodes one after the other. Before every
event it looks whether it shall stop, and ends without that event if so. The
draws are given as a sequence, of which every node takes two.
-/
namespace ProcessChart

/-- What came of a run: its events, how many nodes had an outcome, and when it ended. -/
structure RunOutcome where
  events : List RunEvent
  completed : Nat
  finish : Nat

/-- What came of the transitions of one node. -/
structure NodeRun where
  events : List RunEvent
  time : Nat
  stopped : Bool

/-- The event of a transition of a node that became pending at `begun`. -/
def Transition.event (t : Transition) (id : String) (begun time : Nat) : RunEvent :=
  ⟨id, t.status, time, if t.status.isTerminal then some (time - begun) else none, t.message⟩

/-- Goes through transitions; `emitted` is the number of events that the run has had so far. -/
def runTransitions (stop : Nat → Bool) (id : String) (begun time emitted : Nat) :
    List Transition → NodeRun
  | [] => ⟨[], time, false⟩
  | t :: rest =>
    let now := time + t.wait
    if stop emitted then ⟨[], now, true⟩
    else
      let later := runTransitions stop id begun now (emitted + 1) rest
      { later with events := t.event id begun now :: later.events }

/-- A node has an outcome when one of its events is one, be there one or two of them. -/
def NodeRun.completed (r : NodeRun) : Nat := if r.events.any (·.status.isTerminal) then 1 else 0

namespace RunSettings

/-- Goes through the nodes from position `index` on. -/
def runFrom (s : RunSettings) (draws : Nat → Float) (stop : Nat → Bool)
    (index time emitted : Nat) : List String → RunOutcome
  | [] => ⟨[], 0, time⟩
  | id :: rest =>
    let life := s.lifecycle (draws (2 * index)) (draws (2 * index + 1)) id
    let node := runTransitions stop id time time emitted life
    if node.stopped then ⟨node.events, node.completed, node.time⟩
    else
      let later := s.runFrom draws stop (index + 1) node.time (emitted + node.events.length) rest
      ⟨node.events ++ later.events, node.completed + later.completed, later.finish⟩

/-- The run over these nodes; `stop n` says that it shall stop when it has had `n` events. -/
def run (s : RunSettings) (draws : Nat → Float) (stop : Nat → Bool) (ids : List String) :
    RunOutcome :=
  s.runFrom draws stop 0 0 0 ids

/-- The draws that belong to the seed, or to the clock where there is no seed. -/
def draws (s : RunSettings) (clock : Nat) : Nat → Float := Draws.unit (s.seed.getD clock)

end RunSettings

end ProcessChart
