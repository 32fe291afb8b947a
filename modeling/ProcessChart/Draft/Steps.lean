import ProcessChart.Text.Blank
import ProcessChart.Text.Case

/-!
The steps of a description. The text is cut at line ends, full stops, semicolons
and arrows; blank fragments are dropped, and so is a fragment that repeats the
step before it in upper or lower case. A text without any step gets the steps of
a process that is nothing in particular.
-/
namespace ProcessChart.Draft

/-- The fragments of a text, of which the first begins with `current`. -/
def cutFrom (current : List Char) : List Char → List (List Char)
  | [] => [current]
  | '-' :: '>' :: rest => current :: cutFrom [] rest
  | c :: rest =>
    if c = '\n' || c = '.' || c = ';' then current :: cutFrom [] rest
    else cutFrom (current ++ [c]) rest

def cut (text : List Char) : List (List Char) := cutFrom [] text

def fragments (text : List Char) : List (List Char) :=
  ((cut text).map Text.trim).filter fun f => !f.isEmpty

/-- Equal up to upper and lower case. -/
def sameStep (a b : List Char) : Bool := Text.lower a = Text.lower b

/-- Drops what repeats the last step that was kept. -/
def withoutRepeats (last? : Option (List Char)) : List (List Char) → List (List Char)
  | [] => []
  | f :: rest =>
    if last?.any (sameStep · f) then withoutRepeats last? rest
    else f :: withoutRepeats (some f) rest

def standardSteps : List String := ["Prozess starten", "Schritt ausführen", "Prozess beenden"]

def steps (text : String) : List String :=
  let found := withoutRepeats none (fragments text.toList)
  if found.isEmpty then standardSteps else found.map String.ofList

theorem steps_ne_nil (text : String) : steps text ≠ [] := by
  rw [steps]
  split
  · exact List.cons_ne_nil _ _
  · next h => simpa using h

end ProcessChart.Draft
