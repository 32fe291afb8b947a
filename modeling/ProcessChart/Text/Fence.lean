import ProcessChart.Text.Blank

/-!
Parts of a text that may hold an object: the content of the first fenced block,
and the stretch from the first opening to the last closing brace.
-/
namespace ProcessChart.Text

/-- The text after the first occurrence of the mark. -/
def after? (mark : List Char) : List Char → Option (List Char)
  | [] => none
  | c :: rest =>
    if mark.isPrefixOf (c :: rest) then some ((c :: rest).drop mark.length) else after? mark rest

/-- The text before the first occurrence of the mark. -/
def before? (mark : List Char) : List Char → Option (List Char)
  | [] => none
  | c :: rest =>
    if mark.isPrefixOf (c :: rest) then some [] else (before? mark rest).map (c :: ·)

def fence : List Char := "```".toList

/-- The longer tags come first. -/
def fenceTags : List (List Char) :=
  ["json5".toList, "json".toList, "JSON5".toList, "JSON".toList]

def dropTag (cs : List Char) : List Char :=
  match fenceTags.find? (·.isPrefixOf cs) with
  | some tag => cs.drop tag.length
  | none => cs

/-- What stands between the first two fences, without a tag and without blanks around it. -/
def fenced? (cs : List Char) : Option (List Char) := do
  let opened ← after? fence cs
  let content ← before? fence (trimStart (dropTag opened))
  return trimEnd content

/-- From the first opening to the last closing brace, when these come in this order. -/
def braced? (cs : List Char) : Option (List Char) :=
  let opened := cs.dropWhile (· ≠ '\x7b')
  let kept := (opened.reverse.dropWhile (· ≠ '\x7d')).reverse
  if kept.isEmpty then none else some kept

end ProcessChart.Text
