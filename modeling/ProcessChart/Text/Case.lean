import ProcessChart.Text.CaseClass
import ProcessChart.Text.LowerTable

/-!
Lower case for all of Unicode. One character becomes two, the capital I with a
dot, and the form of the capital sigma depends on whether it ends a word: it has
a cased character before it and none after it, characters that do not matter for
case being passed over on both sides.
-/
namespace ProcessChart.Text

def lowerChar (c : Char) : List Char :=
  if c.toNat = 0x130 then ['i', '\u0307']
  else
    match lowerRuns.find? (·.covers c.toNat) with
    | some run => [Char.ofNat (c.toNat + run.shift).toNat]
    | none => [c]

/-- The first character that matters for case is a cased one. -/
def meetsCased (cs : List Char) : Bool :=
  match cs.dropWhile caseIgnorableClass.contains with
  | [] => false
  | c :: _ => casedClass.contains c

/-- `before` is the text in front, its nearest character first. -/
def lowerFrom (before : List Char) : List Char → List Char
  | [] => []
  | c :: rest =>
    let lowered :=
      if c = 'Σ' then (if meetsCased before && !meetsCased rest then ['ς'] else ['σ'])
      else lowerChar c
    lowered ++ lowerFrom (c :: before) rest

def lower (cs : List Char) : List Char := lowerFrom [] cs

end ProcessChart.Text
