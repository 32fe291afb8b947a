import ProcessChart.Decimal.Binary
import ProcessChart.Decimal.Whole

/-!
The shortest decimal that reads back as a given binary number. The decimals
that read back are those in the rounding interval of the number, whose ends
belong to it when the significand is even. Decimals of one digit are tried
first, then of two digits, and so on; on each grid only the two neighbours of
the number matter, and the nearer one is taken.
-/
namespace ProcessChart.Decimal

inductive Tie where
  | toEven
  | upwards
deriving DecidableEq, Repr

/-- A rational with its rounding interval, over one denominator. -/
structure Interval where
  low : Nat
  value : Nat
  high : Nat
  den : Nat
  closed : Bool

/-- Half a place to each side, or a quarter below a power of two. -/
def BinaryFormat.interval (f : BinaryFormat) (significand : Nat) (exponent : Int) : Interval :=
  let narrow := significand = f.fractionCount && f.minExponent < exponent
  let (unit, den) := inUnits 2 1 4 (-exponent)
  { low := (4 * significand - if narrow then 1 else 2) * unit
    value := 4 * significand * unit
    high := (4 * significand + 2) * unit
    den := den
    closed := significand % 2 = 0 }

def Interval.contains (i : Interval) (num den : Nat) : Bool :=
  let scaled := num * i.den
  if i.closed then i.low * den ≤ scaled && scaled ≤ i.high * den
  else i.low * den < scaled && scaled < i.high * den

/-- The multiple of `10 ^ exponent` in the interval that is nearest to the value. -/
def Interval.onGrid (tie : Tie) (i : Interval) (exponent : Int) : Option Nat :=
  let (n, d) := inUnits 10 i.value i.den exponent
  let below := n / d
  let fits (k : Nat) : Bool :=
    if 0 ≤ exponent then i.contains (k * Nat.pow 10 exponent.toNat) 1
    else i.contains k (Nat.pow 10 (-exponent).toNat)
  let twice := 2 * (n % d)
  let upFirst := d < twice || (d = twice && (tie = .upwards || below % 2 = 1))
  match fits below, fits (below + 1) with
  | true, true => some (if upFirst then below + 1 else below)
  | true, false => some below
  | false, true => some (below + 1)
  | false, false => none

/-- The first grid that has a multiple in the interval, from coarse to fine. -/
def Interval.search (tie : Tie) (i : Interval) (exponent : Int) : Nat → Nat × Int
  | 0 => (0, 0)
  | steps + 1 =>
    match i.onGrid tie exponent with
    | some k => (k, exponent)
    | none => i.search tie (exponent - 1) steps

/-- Moves trailing zeros of the digits into the exponent. -/
def withoutZeros (digits : Nat) (exponent : Int) : Nat × Int :=
  if 0 < digits ∧ digits % 10 = 0 then withoutZeros (digits / 10) (exponent + 1)
  else (digits, exponent)
termination_by digits

/-- Digits and exponent of the shortest decimal for a finite nonzero number. A
double needs at most 17 digits; the first grid is coarser than the number. -/
def BinaryFormat.shortest (f : BinaryFormat) (tie : Tie) (significand : Nat) (exponent : Int) :
    Nat × Int :=
  let magnitude : Int := ((significand.log2 + exponent) * 30103).fdiv 100000
  let (digits, place) :=
    (f.interval significand exponent).search tie (magnitude + 1) 20
  withoutZeros digits place

/-- Plain notation: all digits before and after the point, without an exponent. -/
def positional (digits : Nat) (exponent : Int) : List Char :=
  let ds := Decimal.digits digits
  if 0 ≤ exponent then ds ++ List.replicate exponent.toNat '0'
  else
    let places := (-exponent).toNat
    if places < ds.length then ds.take (ds.length - places) ++ ['.'] ++ ds.drop (ds.length - places)
    else ['0', '.'] ++ List.replicate (places - ds.length) '0' ++ ds

end ProcessChart.Decimal
