import ProcessChart.Json.Value
import ProcessChart.Decimal.Fixed

/-!
Writing JSON, on one line without spaces or over several lines indented by two
spaces a level. Strings escape quotes, backslashes and control characters only.
-/
namespace ProcessChart.Json

/-- The letter of the short escape of a control character, if it has one. -/
def shortEscape? (c : Char) : Option Char :=
  if c = '\x08' then some 'b'
  else if c = '\t' then some 't'
  else if c = '\n' then some 'n'
  else if c = '\x0c' then some 'f'
  else if c = '\r' then some 'r'
  else none

def writeChar (c : Char) : List Char :=
  if c = '"' then ['\\', '"']
  else if c = '\\' then ['\\', '\\']
  else if c.toNat < 32 then
    match shortEscape? c with
    | some letter => ['\\', letter]
    | none => ['\\', 'u', '0', '0', Decimal.hexChar (c.toNat / 16), Decimal.hexChar c.toNat]
  else [c]

def writeString (s : String) : List Char :=
  ['"'] ++ s.toList.flatMap writeChar ++ ['"']

def Number.write : Number → List Char
  | integer i => Decimal.integer i
  | float x => Decimal.scientific .double (Decimal.binary64 x)

inductive Style where
  | compact
  | pretty
deriving DecidableEq, Repr

namespace Style

/-- In the pretty style, a line break with the indentation of the level. -/
def newLine : Style → Nat → List Char
  | compact, _ => []
  | pretty, level => '\n' :: List.replicate (2 * level) ' '

def colon : Style → List Char
  | compact => [':']
  | pretty => [':', ' ']

end Style

mutual

/-- The value as it stands at the level; an empty array or object stays on one line. -/
def write (style : Style) (level : Nat) : Json → List Char
  | null => "null".toList
  | bool true => "true".toList
  | bool false => "false".toList
  | number n => n.write
  | string s => writeString s
  | array [] => ['[', ']']
  | array (item :: rest) =>
    ['['] ++ style.newLine (level + 1) ++ write style (level + 1) item ++
      writeItems style level rest ++ style.newLine level ++ [']']
  | object [] => ['\x7b', '\x7d']
  | object ((key, value) :: rest) =>
    ['\x7b'] ++ style.newLine (level + 1) ++ writeString key ++ style.colon ++
      write style (level + 1) value ++ writeFields style level rest ++ style.newLine level ++
      ['\x7d']

/-- The items after the first, each behind a comma. -/
def writeItems (style : Style) (level : Nat) : List Json → List Char
  | [] => []
  | item :: rest =>
    [','] ++ style.newLine (level + 1) ++ write style (level + 1) item ++
      writeItems style level rest

/-- The fields after the first, each behind a comma. -/
def writeFields (style : Style) (level : Nat) : List (String × Json) → List Char
  | [] => []
  | (key, value) :: rest =>
    [','] ++ style.newLine (level + 1) ++ writeString key ++ style.colon ++
      write style (level + 1) value ++ writeFields style level rest

end

def print (style : Style) (j : Json) : String := String.ofList (j.write style 0)

end ProcessChart.Json
