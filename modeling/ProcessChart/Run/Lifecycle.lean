import ProcessChart.Run.Event
import ProcessChart.Run.Settings
import ProcessChart.Decimal.Binary
import ProcessChart.Decimal.Reading
import ProcessChart.Wait

/-!
The life of one node in a demonstration run: it is pending, it runs, and it comes
to an outcome. A failure is followed by one more try, which always succeeds.
-/
namespace ProcessChart

/-- A status that a node comes to after a wait, in milliseconds. -/
structure Transition where
  wait : Nat
  status : RunStatus
  message : Option String
deriving DecidableEq, Repr

/-- Letters that differ only in case become equal; the long s is one of the letters s. -/
def foldCase (c : Char) : Char := if c = 'ſ' then 's' else Decimal.lowerAscii c

def occursIn (part : List Char) : List Char → Bool
  | [] => part.isEmpty
  | c :: rest => part.isPrefixOf (c :: rest) || occursIn part rest

/-- Nodes named for a start or an end never fail. -/
def neverFails (id : String) : Bool :=
  let folded := id.toList.map foldCase
  occursIn "start".toList folded || occursIn "end".toList folded

/-- Milliseconds, rounded up, of a time in seconds rounded to the nearest nanosecond. -/
def wholeMilliseconds (seconds : Float) : Nat :=
  match Decimal.binary64 seconds with
  | .finite false significand exponent =>
    let (n, d) := Decimal.inUnits 2 (significand * 1000000000) 1 (-exponent)
    (Decimal.roundQuotient n d + 999999) / 1000000
  | _ => 0

namespace RunSettings

/-- A multiple of the base delay. -/
def wait (s : RunSettings) (factor : Float) : Nat :=
  let delay := (UInt64.ofNat s.baseDelay).toFloat * factor
  lasting (wholeMilliseconds ((if 0 < delay then delay else 0) / 1000))

/-- The failure rate brought between zero and one; what is no number stays so. -/
def clampedRate (s : RunSettings) : Float :=
  if s.failureRate < 0 then 0 else if 1 < s.failureRate then 1 else s.failureRate

def fails (s : RunSettings) (roll : Float) (id : String) : Bool :=
  roll < s.clampedRate && !neverFails id

/-- What happens to a node when nothing stops the run. -/
def lifecycle (s : RunSettings) (jitter roll : Float) (id : String) : List Transition :=
  [⟨0, .pending, none⟩, ⟨s.wait 0.5, .running, none⟩] ++
  if s.fails roll id then
    [⟨s.wait (1 + jitter), .failure, some "Demo-Fehler"⟩,
     ⟨s.wait 0.6, .running, some "Retry"⟩,
     ⟨s.wait 1, .success, some "Erfolg nach Retry"⟩]
  else [⟨s.wait (1 + jitter), .success, some "OK"⟩]

end RunSettings

end ProcessChart
