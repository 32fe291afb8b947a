/-!
Binary floating point numbers and the exact rationals they stand for. A format
is given by the widths of its fields; a word of the format is read as
significand times a power of two, and a rational is written as the word nearest
to it, a tie going to the even significand.
-/
namespace ProcessChart.Decimal

structure BinaryFormat where
  fractionBits : Nat
  exponentBits : Nat

namespace BinaryFormat

def double : BinaryFormat := ⟨52, 11⟩

def single : BinaryFormat := ⟨23, 8⟩

/-- How many fractions there are, which is also the significand with the fraction zero. -/
def fractionCount (f : BinaryFormat) : Nat := Nat.pow 2 f.fractionBits

def exponentCount (f : BinaryFormat) : Nat := Nat.pow 2 f.exponentBits

/-- The exponent of the last place of the smallest numbers. -/
def minExponent (f : BinaryFormat) : Int := 2 - (f.exponentCount / 2 : Nat) - f.fractionBits

/-- The word of positive infinity; the words of all finite numbers lie below. -/
def infinityWord (f : BinaryFormat) : Nat := (f.exponentCount - 1) * f.fractionCount

def signWord (f : BinaryFormat) : Nat := f.exponentCount * f.fractionCount

end BinaryFormat

inductive BinaryValue where
  | nan
  | infinite (negative : Bool)
  /-- The number `significand * 2 ^ exponent`, with a sign also for zero. -/
  | finite (negative : Bool) (significand : Nat) (exponent : Int)
deriving DecidableEq, Repr

namespace BinaryFormat

def read (f : BinaryFormat) (word : Nat) : BinaryValue :=
  let negative := word / f.signWord % 2 = 1
  let fraction := word % f.fractionCount
  let exponent := word / f.fractionCount % f.exponentCount
  if exponent = f.exponentCount - 1 then
    if fraction = 0 then .infinite negative else .nan
  else if exponent = 0 then .finite negative fraction f.minExponent
  else .finite negative (f.fractionCount + fraction) (f.minExponent + exponent - 1)

end BinaryFormat

/-- The quotient rounded to the nearest whole number, a tie going to the even one. -/
def roundQuotient (num den : Nat) : Nat :=
  let q := num / den
  let twice := 2 * (num % den)
  if twice < den then q
  else if den < twice then q + 1
  else if q % 2 = 0 then q else q + 1

/-- Numerator and denominator of `num / den` in units of `base ^ exponent`. -/
def inUnits (base num den : Nat) (exponent : Int) : Nat × Nat :=
  if 0 ≤ exponent then (num, den * Nat.pow base exponent.toNat)
  else (num * Nat.pow base (-exponent).toNat, den)

namespace BinaryFormat

/-- The exponent of the last place of the numbers around `num / den`. -/
def placeExponent (f : BinaryFormat) (num den : Nat) : Int :=
  let guess : Int := max (num.log2 - den.log2 - f.fractionBits) f.minExponent
  let (n, d) := inUnits 2 num den guess
  if n < d * f.fractionCount && f.minExponent < guess then guess - 1 else guess

/-- The word nearest to `num / den`; too large a number becomes infinite. -/
def nearest (f : BinaryFormat) (num den : Nat) : Nat :=
  if num = 0 then 0
  else
    let exponent := f.placeExponent num den
    let (n, d) := inUnits 2 num den exponent
    min ((exponent - f.minExponent).toNat * f.fractionCount + roundQuotient n d) f.infinityWord

/-- The word nearest to the decimal `digits * 10 ^ exponent`. Exponents far
outside the range of the format are settled without computing the power. -/
def nearestDecimal (f : BinaryFormat) (digits : Nat) (exponent : Int) : Nat :=
  let length : Int := digits.log2 / 3 + 1
  if digits = 0 || exponent + length < -400 then 0
  else if 400 < exponent then f.infinityWord
  else if 0 ≤ exponent then f.nearest (digits * Nat.pow 10 exponent.toNat) 1
  else f.nearest digits (Nat.pow 10 (-exponent).toNat)

end BinaryFormat

def binary64 (x : Float) : BinaryValue := BinaryFormat.double.read x.toBits.toNat

def binary32 (x : Float32) : BinaryValue := BinaryFormat.single.read x.toBits.toNat

/-- The double nearest to `digits * 10 ^ exponent`. -/
def float64 (negative : Bool) (digits : Nat) (exponent : Int) : Float :=
  let word := BinaryFormat.double.nearestDecimal digits exponent
  Float.ofBits (UInt64.ofNat (if negative then word + BinaryFormat.double.signWord else word))

/-- The single nearest to `digits * 10 ^ exponent`. -/
def float32 (negative : Bool) (digits : Nat) (exponent : Int) : Float32 :=
  let word := BinaryFormat.single.nearestDecimal digits exponent
  Float32.ofBits (UInt32.ofNat (if negative then word + BinaryFormat.single.signWord else word))

end ProcessChart.Decimal
