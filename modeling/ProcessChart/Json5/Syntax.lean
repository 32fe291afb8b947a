import ProcessChart.Record.Fault
import ProcessChart.Text.IdentifierClass

/-!
The syntax of JSON5. A text is first read as a whole into a tree, in which
strings keep their components and numbers their letters; only later, and only
where they are asked for, do these get their values.
-/
namespace ProcessChart

namespace Json5

/-- A piece of a string or key, as it is written. -/
inductive Component where
  | literal (c : Char)
  /-- A backslash and a character. -/
  | escaped (c : Char)
  | nul
  | hexadecimal (digits : List Char)
  | unicode (digits : List Char)

end Json5

inductive Json5 where
  | null
  | bool (b : Bool)
  | number (token : List Char)
  | string (components : List Json5.Component)
  | array (items : List Json5)
  | object (entries : List (List Json5.Component × Json5))

namespace Json5

def isLineEnd (c : Char) : Bool := c = '\n' || c = '\r' || c = '\u2028' || c = '\u2029'

/-- Blank characters between tokens: tabs, spaces, line ends, and the byte order mark. -/
def isSpace (c : Char) : Bool :=
  let n := c.toNat
  n = 0x09 || n = 0x0B || n = 0x0C || n = 0x20 || n = 0xA0 || n = 0x1680 ||
  (0x2000 ≤ n && n ≤ 0x200A) || n = 0x202F || n = 0x205F || n = 0x3000 || n = 0xFEFF ||
  isLineEnd c

/-- Where a skip stands: between tokens, or in a comment. -/
inductive SkipState where
  | between
  | inLine
  /-- In a comment that started with `start` left of the text. -/
  | inBlock (start : List Char)

/-- A comment that is never closed is not skipped. -/
def skipFrom : SkipState → List Char → List Char
  | .between, [] => []
  | .inLine, [] => []
  | .inBlock start, [] => start
  | .between, '/' :: '/' :: rest => skipFrom .inLine rest
  | .between, '/' :: '*' :: rest => skipFrom (.inBlock ('/' :: '*' :: rest)) rest
  | .between, c :: rest => if isSpace c then skipFrom .between rest else c :: rest
  | .inLine, c :: rest => if isLineEnd c then skipFrom .between rest else skipFrom .inLine rest
  | .inBlock _, '*' :: '/' :: rest => skipFrom .between rest
  | .inBlock start, _ :: rest => skipFrom (.inBlock start) rest

/-- Skips blank characters and comments. -/
def skip (cs : List Char) : List Char := skipFrom .between cs

/-- The text after the word, if the word stands in front. -/
def literal? (word cs : List Char) : Option (List Char) :=
  if word.isPrefixOf cs then some (cs.drop word.length) else none

def isHexDigit (c : Char) : Bool := (Decimal.hexDigit? c).isSome

/-- Exactly this many hexadecimal digits. -/
def hexDigits? (count : Nat) (cs : List Char) : Option (List Char × List Char) :=
  let digits := cs.take count
  if digits.length = count && digits.all isHexDigit then some (digits, cs.drop count) else none

/-- A character that cannot be escaped by a backslash alone, unless it has a meaning of its own. -/
def isReserved (c : Char) : Bool := Decimal.isDigit c || c = 'x' || c = 'u' || isLineEnd c

/-- What follows a backslash. A line end there continues the string and adds nothing. -/
def escape? : List Char → Option (List Component × List Char)
  | [] => none
  | '0' :: rest => some ([.nul], rest)
  | 'x' :: rest => (hexDigits? 2 rest).map fun r => ([.hexadecimal r.1], r.2)
  | 'u' :: rest => (hexDigits? 4 rest).map fun r => ([.unicode r.1], r.2)
  | '\r' :: '\n' :: rest => some ([], rest)
  | c :: rest =>
    if isLineEnd c then some ([], rest)
    else if isReserved c then none
    else some ([.escaped c], rest)

/-- The components up to the closing quote. -/
def components? (quote : Char) (limit : Nat) (cs : List Char) :
    Option (List Component × List Char) :=
  match limit, cs with
  | _, [] => none
  | 0, _ => none
  | limit + 1, c :: rest =>
    if c = quote then some ([], rest)
    else if c = '\\' then do
      let (first, rest) ← escape? rest
      let (others, rest) ← components? quote limit rest
      return (first ++ others, rest)
    else if isLineEnd c then none
    else do
      let (others, rest) ← components? quote limit rest
      return (.literal c :: others, rest)

def startsIdentifier (c : Char) : Bool := c = '$' || c = '_' || Text.letterClass.contains c

def continuesIdentifier (c : Char) : Bool :=
  startsIdentifier c || Text.identifierMarkClass.contains c || c = '\u200C' || c = '\u200D'

/-- One character of an identifier, given directly or by its code. -/
def identifierPart? (fits : Char → Bool) : List Char → Option (Component × List Char)
  | '\\' :: 'u' :: rest => (hexDigits? 4 rest).map fun r => (.unicode r.1, r.2)
  | c :: rest => if fits c then some (.literal c, rest) else none
  | [] => none

def identifierParts : Nat → List Char → List Component × List Char
  | 0, cs => ([], cs)
  | limit + 1, cs =>
    match identifierPart? continuesIdentifier cs with
    | some (part, rest) =>
      let (others, rest) := identifierParts limit rest
      (part :: others, rest)
    | none => ([], cs)

def identifier? (limit : Nat) (cs : List Char) : Option (List Component × List Char) := do
  let (first, rest) ← identifierPart? startsIdentifier cs
  let (others, rest) := identifierParts limit rest
  return (first :: others, rest)

/-- A string in quotes of either kind. -/
def string? (limit : Nat) : List Char → Option (List Component × List Char)
  | '"' :: rest => components? '"' limit rest
  | '\'' :: rest => components? '\'' limit rest
  | _ => none

def key? (limit : Nat) (cs : List Char) : Option (List Component × List Char) :=
  (identifier? limit cs).or (string? limit cs)

/-- An exponent with at least one digit, or else nothing. -/
def exponentLength (cs : List Char) : Nat :=
  match cs with
  | c :: rest =>
    if c = 'e' || c = 'E' then
      let sign :=
        match rest with
        | '+' :: _ => 1
        | '-' :: _ => 1
        | _ => 0
      let digits := ((rest.drop sign).takeWhile Decimal.isDigit).length
      if digits = 0 then 0 else 1 + sign + digits
    else 0
  | [] => 0

/-- Digits before the point: a zero alone, or digits that do not begin with zero. -/
def wholeLength (cs : List Char) : Nat :=
  match cs with
  | '0' :: _ => 1
  | _ => (cs.takeWhile Decimal.isDigit).length

def decimalLength (cs : List Char) : Nat :=
  let whole := wholeLength cs
  match cs.drop whole with
  | '.' :: rest =>
    let part := (rest.takeWhile Decimal.isDigit).length
    if whole = 0 && part = 0 then 0
    else whole + 1 + part + exponentLength (rest.drop part)
  | rest => if whole = 0 then 0 else whole + exponentLength rest

def hexLength : List Char → Nat
  | '0' :: x :: rest =>
    let digits := (rest.takeWhile isHexDigit).length
    if (x = 'x' || x = 'X') && digits ≠ 0 then 2 + digits else 0
  | _ => 0

/-- How many characters the number without sign at the front of the text has; zero if there is none. -/
def unsignedLength (cs : List Char) : Nat :=
  let hexadecimal := hexLength cs
  let decimal := decimalLength cs
  if hexadecimal ≠ 0 then hexadecimal
  else if decimal ≠ 0 then decimal
  else if "Infinity".toList.isPrefixOf cs then 8
  else if "NaN".toList.isPrefixOf cs then 3
  else 0

def number? (cs : List Char) : Option (List Char × List Char) :=
  let sign :=
    match cs with
    | '+' :: _ => 1
    | '-' :: _ => 1
    | _ => 0
  let length := unsignedLength (cs.drop sign)
  if length = 0 then none else some (cs.take (sign + length), cs.drop (sign + length))

/-- Items separated by commas up to the closing bracket; one comma may follow the last. -/
def items? {α : Type} (item? : List Char → Option (α × List Char)) (close : Char) :
    Nat → List Char → Option (List α × List Char)
  | 0, _ => none
  | limit + 1, cs => do
    let (x, rest) ← item? cs
    match skip rest with
    | [] => none
    | c :: more =>
      if c = close then return ([x], more)
      else if c = ',' then
        match skip more with
        | [] => none
        | next :: after =>
          if next = close then return ([x], after)
          else
            let (xs, rest) ← items? item? close limit (next :: after)
            return (x :: xs, rest)
      else none

def list? {α : Type} (item? : List Char → Option (α × List Char)) (close : Char) (limit : Nat)
    (cs : List Char) : Option (List α × List Char) :=
  match skip cs with
  | [] => none
  | c :: rest => if c = close then some ([], rest) else items? item? close limit (c :: rest)

def member? (value? : List Char → Option (Json5 × List Char)) (limit : Nat) (cs : List Char) :
    Option ((List Component × Json5) × List Char) := do
  let (key, rest) ← key? limit cs
  match skip rest with
  | ':' :: more =>
    let (value, rest) ← value? (skip more)
    return ((key, value), rest)
  | _ => none

/-- A value at the front of the text. The limit bounds the length of every list and string. -/
def value? (limit : Nat) : Nat → List Char → Option (Json5 × List Char)
  | _, [] => none
  | 0, _ => none
  | depth + 1, c :: rest =>
    match c with
    | 'n' => (literal? "ull".toList rest).map (.null, ·)
    | 't' => (literal? "rue".toList rest).map (.bool true, ·)
    | 'f' => (literal? "alse".toList rest).map (.bool false, ·)
    | '"' => (components? '"' limit rest).map fun r => (.string r.1, r.2)
    | '\'' => (components? '\'' limit rest).map fun r => (.string r.1, r.2)
    | '[' => (list? (value? limit depth) ']' limit rest).map fun r => (.array r.1, r.2)
    | '\x7b' =>
      (list? (member? (value? limit depth) limit) '\x7d' limit rest).map
        fun r => (.object r.1, r.2)
    | _ => (number? (c :: rest)).map fun r => (.number r.1, r.2)

/-- A text of some length has lists, strings and nesting of at most that length. -/
def parse? (text : List Char) : Option Json5 :=
  let limit := text.length + 1
  match value? limit limit (skip text) with
  | some (j, rest) => if (skip rest).isEmpty then some j else none
  | none => none

end Json5

end ProcessChart
