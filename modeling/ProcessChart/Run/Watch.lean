import ProcessChart.Run.Demo
import ProcessChart.Run.Log

/-!
Watching a run from outside. The run goes on only while the watcher sleeps or
waits for its end; in between the watcher may look at what has happened and may
ask the run to stop. A run also ends when its observer breaks down after some
event, and is then counted as if it had completed nothing.
-/
namespace ProcessChart

structure Watch where
  settings : RunSettings
  draws : Nat → Float
  ids : List String
  /-- After how many events the observer breaks down. -/
  breaksAfter : Option Nat
  /-- How long the watcher has slept; before its first sleep the run has not begun. -/
  slept : Option Nat
  /-- How many events there were when the run was first asked to stop. -/
  stopAfter : Option Nat

namespace Watch

def start (s : RunSettings) (draws : Nat → Float) (ids : List String) (breaksAfter : Option Nat) :
    Watch :=
  ⟨s, draws, ids, breaksAfter, none, none⟩

/-- The run up to its end, if nobody asks it to stop any more. -/
def whole (w : Watch) : RunOutcome :=
  let outcome := w.settings.run w.draws (fun n => w.stopAfter.any (· ≤ n)) w.ids
  match w.breaksAfter.bind fun n => if n = 0 then none else outcome.events[n - 1]? with
  | none => outcome
  | some last => ⟨outcome.events.take (w.breaksAfter.getD 0), 0, last.time⟩

/-- The events that have happened. -/
def seen (w : Watch) : List RunEvent :=
  match w.slept with
  | none => []
  | some now => w.whole.events.filter (·.time ≤ now)

def isStopped (w : Watch) : Bool := w.stopAfter.isSome

def isFinished (w : Watch) : Bool :=
  match w.slept with
  | none => false
  | some now => w.whole.finish ≤ now

/-- A sleep of no length lets nothing happen. -/
def sleep (w : Watch) (time : Nat) : Watch :=
  if time = 0 then w else { w with slept := some (w.slept.getD 0 + lasting time) }

/-- Only the first request counts. -/
def stop (w : Watch) : Watch :=
  { w with stopAfter := w.stopAfter.or (some w.seen.length) }

/-- Waits for the end of the run. -/
def wait (w : Watch) : Watch := { w with slept := some (max (w.slept.getD 0) w.whole.finish) }

end Watch

end ProcessChart
