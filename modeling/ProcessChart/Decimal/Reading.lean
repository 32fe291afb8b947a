import ProcessChart.Decimal.Binary
import ProcessChart.Decimal.Whole

/-!
Reading a number written in decimal: a sign, digits with at most one point among
or around them, and an exponent. Besides digits there are names for infinity and
for what is no number. The result is the nearest number of the binary format.
-/
namespace ProcessChart.Decimal

inductive Numeral where
  | nan
  | infinite (negative : Bool)
  | finite (negative : Bool) (digits : Nat) (exponent : Int)
deriving DecidableEq, Repr

def lowerAscii (c : Char) : Char := if 'A' ≤ c && c ≤ 'Z' then Char.ofNat (c.toNat + 32) else c

/-- A sign may stand in front; without one the number is not negative. -/
def splitSign : List Char → Bool × List Char
  | '-' :: rest => (true, rest)
  | '+' :: rest => (false, rest)
  | cs => (false, cs)

/-- The exponent must have a digit and nothing after its digits. -/
def exponent? : List Char → Option Int
  | [] => some 0
  | c :: rest =>
    if lowerAscii c = 'e' then
      let (negative, ds) := splitSign rest
      if ds.isEmpty || !ds.all isDigit then none
      else some (if negative then -(value ds : Int) else value ds)
    else none

/-- There must be a digit before or after the point. -/
def unsigned? (negative : Bool) (cs : List Char) : Option Numeral :=
  let whole := cs.takeWhile isDigit
  let afterWhole := cs.dropWhile isDigit
  let (part, rest) :=
    match afterWhole with
    | '.' :: more => (more.takeWhile isDigit, more.dropWhile isDigit)
    | more => ([], more)
  if whole.isEmpty && part.isEmpty then none
  else (exponent? rest).map fun e => .finite negative (value (whole ++ part)) (e - part.length)

def numeral? (cs : List Char) : Option Numeral :=
  let (negative, rest) := splitSign cs
  let name := String.ofList (rest.map lowerAscii)
  if name = "nan" then some .nan
  else if name = "inf" || name = "infinity" then some (.infinite negative)
  else unsigned? negative rest

def Numeral.toFloat : Numeral → Float
  | nan => 0 / 0
  | infinite negative => if negative then -1 / 0 else 1 / 0
  | finite negative digits exponent => float64 negative digits exponent

def Numeral.toFloat32 : Numeral → Float32
  | nan => 0 / 0
  | infinite negative => if negative then -1 / 0 else 1 / 0
  | finite negative digits exponent => float32 negative digits exponent

end ProcessChart.Decimal
