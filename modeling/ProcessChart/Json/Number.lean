import ProcessChart.Decimal.Binary
import ProcessChart.Decimal.Whole

/-!
Numbers of a JSON text. A number without point and exponent that fits a word of
64 bits, signed or unsigned, is a whole number. All others are doubles: the
digits are gathered in a word as long as they fit, and the word is then scaled
by one power of ten, which is quick but not always the nearest double.
-/
namespace ProcessChart.Json

inductive Number where
  | integer (i : Int)
  | float (x : Float)

namespace Number

def largestWord : Nat := 0xFFFFFFFFFFFFFFFF

/-- Gathers digits until the next one would not fit the word; says how many were left out. -/
def gather (word : Nat) : List Char → Nat × Nat
  | [] => (word, 0)
  | c :: rest =>
    let next := 10 * word + Decimal.digitValue c
    if next ≤ largestWord then gather next rest else (word, rest.length + 1)

def powerOfTen (n : Nat) : Float := Decimal.float64 false 1 n

/-- Division by a large power goes in steps, because the power itself is no double. -/
def divideByPower (x : Float) (n : Nat) : Float :=
  if n ≤ 308 then x / powerOfTen n
  else if x == 0 then x
  else divideByPower (x / powerOfTen 308) (n - 308)
termination_by n

/-- No value is given when it would be infinite. -/
def scale (negative : Bool) (word : Nat) (exponent : Int) : Option Float :=
  let x := (UInt64.ofNat word).toFloat
  let scaled? :=
    if exponent < 0 then some (divideByPower x (-exponent).toNat)
    else if exponent ≤ 308 then
      let y := x * powerOfTen exponent.toNat
      if y.isInf then none else some y
    else if x == 0 then some x
    else none
  scaled?.map fun y => if negative then -y else y

/-- Without point and exponent; zero with a minus sign is a double. -/
def whole (negative : Bool) (word : Nat) : Number :=
  if negative then
    if word = 0 || 0x8000000000000000 < word then .float (-(UInt64.ofNat word).toFloat) else .integer (-word)
  else .integer word

/-- The exponent after its mark; one beyond 31 bits is only good for making zero. -/
def withExponent (negative : Bool) (word : Nat) (exponent : Int) (cs : List Char) :
    Option (Number × List Char) :=
  let (down, ds) :=
    match cs with
    | '+' :: rest => (false, rest)
    | '-' :: rest => (true, rest)
    | rest => (false, rest)
  let digits := ds.takeWhile Decimal.isDigit
  let rest := ds.dropWhile Decimal.isDigit
  if digits.isEmpty then none
  else
    let size := Decimal.value digits
    if 0x7FFFFFFF < size then
      if word ≠ 0 && !down then none else some (.float (if negative then -0.0 else 0.0), rest)
    else
      (scale negative word (if down then exponent - size else exponent + size)).map
        fun x => (.float x, rest)

/-- What follows the digits before the point; `dropped` of these did not fit the word. -/
def afterWhole (negative : Bool) (word dropped : Nat) (cs : List Char) :
    Option (Number × List Char) :=
  match cs with
  | '.' :: more =>
    let digits := more.takeWhile Decimal.isDigit
    let rest := more.dropWhile Decimal.isDigit
    if digits.isEmpty then none
    else
      let (word, left) := gather word digits
      let exponent : Int := dropped - (digits.length - left : Nat)
      match rest with
      | 'e' :: tail => withExponent negative word exponent tail
      | 'E' :: tail => withExponent negative word exponent tail
      | rest => (scale negative word exponent).map fun x => (.float x, rest)
  | 'e' :: tail => withExponent negative word dropped tail
  | 'E' :: tail => withExponent negative word dropped tail
  | rest =>
    if dropped = 0 then some (whole negative word, rest)
    else (scale negative word dropped).map fun x => (.float x, rest)

/-- A number at the front of the text, and the text after it. -/
def read (cs : List Char) : Option (Number × List Char) :=
  let (negative, unsigned) :=
    match cs with
    | '-' :: rest => (true, rest)
    | rest => (false, rest)
  let digits := unsigned.takeWhile Decimal.isDigit
  let rest := unsigned.dropWhile Decimal.isDigit
  if digits.isEmpty || (digits.head? = some '0' && 1 < digits.length) then none
  else
    let (word, dropped) := gather 0 digits
    afterWhole negative word dropped rest

end Number

end ProcessChart.Json
