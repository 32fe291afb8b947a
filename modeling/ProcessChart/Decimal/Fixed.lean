import ProcessChart.Decimal.Binary
import ProcessChart.Decimal.Shortest

/-!
Binary numbers written with a fixed count of places, or with as few digits as
read back. The exact value is rounded, a tie going to the even digit, and the
sign of a zero or of a number rounded to zero stays.
-/
namespace ProcessChart.Decimal

def signed (negative : Bool) (text : List Char) : List Char :=
  if negative then '-' :: text else text

/-- At least one digit stands before the point. -/
def withPlaces (places scaled : Nat) : List Char :=
  if places = 0 then digits scaled
  else
    let whole := digits (scaled / Nat.pow 10 places)
    let part := digits (scaled % Nat.pow 10 places)
    whole ++ ['.'] ++ List.replicate (places - part.length) '0' ++ part

def fixed (places : Nat) : BinaryValue → List Char
  | .nan => "NaN".toList
  | .infinite negative => signed negative "inf".toList
  | .finite negative significand exponent =>
    let (n, d) := inUnits 2 (significand * Nat.pow 10 places) 1 (-exponent)
    signed negative (withPlaces places (roundQuotient n d))

/-- The fewest digits that read back, never with an exponent. -/
def plain (f : BinaryFormat) : BinaryValue → List Char
  | .nan => "NaN".toList
  | .infinite negative => signed negative "inf".toList
  | .finite negative 0 _ => signed negative ['0']
  | .finite negative significand exponent =>
    let (ds, e) := f.shortest .upwards significand exponent
    signed negative (positional ds e)

/-- The fewest digits that read back, with a point or an exponent: an exponent
where the point would lie more than 16 digits right or 5 digits left of the first digit. -/
def scientific (f : BinaryFormat) : BinaryValue → List Char
  | .nan => "NaN".toList
  | .infinite negative => signed negative "inf".toList
  | .finite negative 0 _ => signed negative "0.0".toList
  | .finite negative significand exponent =>
    let (n, e) := f.shortest .toEven significand exponent
    let ds := digits n
    let point : Int := ds.length + e
    signed negative <|
      if 0 ≤ e && point ≤ 16 then positional n e ++ ".0".toList
      else if -5 < point && point ≤ 16 then positional n e
      else
        let mark := if point - 1 < 0 then ['e'] else ['e', '+']
        ds.take 1 ++ (if ds.length = 1 then [] else '.' :: ds.drop 1) ++ mark ++
          integer (point - 1)

end ProcessChart.Decimal
