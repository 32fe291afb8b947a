/-!
Text inside markup. The five characters that markup gives a meaning to are
replaced by entities, one kind after the other; ampersands come first, because
every entity begins with one.
-/
namespace ProcessChart.Markup

def replaceChar (c : Char) (entity : String) (text : List Char) : List Char :=
  text.flatMap fun x => if x = c then entity.toList else [x]

def escapeChars (text : List Char) : List Char :=
  let ampersands := replaceChar '&' "&amp;" text
  let openings := replaceChar '<' "&lt;" ampersands
  let closings := replaceChar '>' "&gt;" openings
  let quotes := replaceChar '"' "&quot;" closings
  replaceChar '\'' "&apos;" quotes

def escape (text : String) : String := String.ofList (escapeChars text.toList)

theorem replaceChar_append (c : Char) (entity : String) (a b : List Char) :
    replaceChar c entity (a ++ b) = replaceChar c entity a ++ replaceChar c entity b := by
  simp [replaceChar]

theorem escapeChars_append (a b : List Char) :
    escapeChars (a ++ b) = escapeChars a ++ escapeChars b := by
  simp [escapeChars, replaceChar_append]

end ProcessChart.Markup
