/-!
A class of characters is kept as the increasing list of the code points at which
membership changes. The first of them is the first member.
-/
namespace ProcessChart.Text

structure CharClass where
  changes : List Nat

/-- A code point is a member when it lies behind an odd count of changes. -/
def CharClass.contains (k : CharClass) (c : Char) : Bool :=
  (k.changes.takeWhile (· ≤ c.toNat)).length % 2 = 1

end ProcessChart.Text
