import ProcessChart.Json.Value

/-!
Reading strict JSON. A reader takes what is left of the text and gives a value
with the text after it, or nothing when the text is not JSON. Arrays and objects
may lie in each other 127 deep.
-/
namespace ProcessChart.Json

def isSpace (c : Char) : Bool := c = ' ' || c = '\t' || c = '\n' || c = '\r'

def skipSpace (cs : List Char) : List Char := cs.dropWhile isSpace

/-- The text after the word, if the word stands in front. -/
def literal? (word cs : List Char) : Option (List Char) :=
  if word.isPrefixOf cs then some (cs.drop word.length) else none

/-- Four hexadecimal digits. -/
def unit? : List Char → Option (Nat × List Char)
  | a :: b :: c :: d :: rest => (Decimal.hex? [a, b, c, d]).map (·, rest)
  | _ => none

def isLead (unit : Nat) : Bool := 0xD800 ≤ unit && unit ≤ 0xDBFF

def isTrail (unit : Nat) : Bool := 0xDC00 ≤ unit && unit ≤ 0xDFFF

/-- The character after `\u`; a leading surrogate needs its trailing one. -/
def unicodeEscape? (cs : List Char) : Option (Char × List Char) := do
  let (unit, rest) ← unit? cs
  if isTrail unit then none
  else if isLead unit then
    match rest with
    | '\\' :: 'u' :: more =>
      let (trail, rest) ← unit? more
      if isTrail trail then
        some (Char.ofNat (0x10000 + (unit - 0xD800) * 0x400 + (trail - 0xDC00)), rest)
      else none
    | _ => none
  else some (Char.ofNat unit, rest)

def escape? : List Char → Option (Char × List Char)
  | '"' :: rest => some ('"', rest)
  | '\\' :: rest => some ('\\', rest)
  | '/' :: rest => some ('/', rest)
  | 'b' :: rest => some ('\x08', rest)
  | 'f' :: rest => some ('\x0c', rest)
  | 'n' :: rest => some ('\n', rest)
  | 'r' :: rest => some ('\r', rest)
  | 't' :: rest => some ('\t', rest)
  | 'u' :: rest => unicodeEscape? rest
  | _ => none

/-- The characters up to the closing quote. Control characters must be escaped. -/
def chars? (limit : Nat) (cs : List Char) : Option (List Char × List Char) :=
  match limit, cs with
  | _, [] => none
  | 0, _ => none
  | limit + 1, c :: rest =>
    if c = '"' then some ([], rest)
    else if c = '\\' then do
      let (x, rest) ← escape? rest
      let (xs, rest) ← chars? limit rest
      return (x :: xs, rest)
    else if c.toNat < 32 then none
    else do
      let (xs, rest) ← chars? limit rest
      return (c :: xs, rest)

/-- Items separated by commas up to the closing bracket, the first of them not yet read. -/
def items? {α : Type} (item? : List Char → Option (α × List Char)) (close : Char) :
    Nat → List Char → Option (List α × List Char)
  | 0, _ => none
  | limit + 1, cs => do
    let (x, rest) ← item? (skipSpace cs)
    match skipSpace rest with
    | [] => none
    | c :: more =>
      if c = close then return ([x], more)
      else if c = ',' then
        let (xs, rest) ← items? item? close limit more
        return (x :: xs, rest)
      else none

/-- Any number of items and the closing bracket. -/
def list? {α : Type} (item? : List Char → Option (α × List Char)) (close : Char) (limit : Nat)
    (cs : List Char) : Option (List α × List Char) :=
  match skipSpace cs with
  | [] => none
  | c :: rest => if c = close then some ([], rest) else items? item? close limit (c :: rest)

def string? (limit : Nat) : List Char → Option (String × List Char)
  | '"' :: rest => (chars? limit rest).map fun r => (String.ofList r.1, r.2)
  | _ => none

def member? (value? : List Char → Option (Json × List Char)) (limit : Nat) (cs : List Char) :
    Option ((String × Json) × List Char) := do
  let (key, rest) ← string? limit cs
  match skipSpace rest with
  | ':' :: more =>
    let (value, rest) ← value? (skipSpace more)
    return ((key, value), rest)
  | _ => none

/-- A value at the front of the text. The limit bounds the length of every list and string. -/
def value? (limit : Nat) : Nat → List Char → Option (Json × List Char)
  | _, [] => none
  | depth, c :: rest =>
    match c with
    | 'n' => (literal? "ull".toList rest).map (.null, ·)
    | 't' => (literal? "rue".toList rest).map (.bool true, ·)
    | 'f' => (literal? "alse".toList rest).map (.bool false, ·)
    | '"' => (string? limit (c :: rest)).map fun r => (.string r.1, r.2)
    | '[' =>
      match depth with
      | 0 => none
      | depth + 1 =>
        (list? (value? limit depth) ']' limit rest).map fun r => (.array r.1, r.2)
    | '\x7b' =>
      match depth with
      | 0 => none
      | depth + 1 =>
        (list? (member? (value? limit depth) limit) '\x7d' limit rest).map
          fun r => (.object (sortFields r.1), r.2)
    | _ => (Number.read (c :: rest)).map fun r => (.number r.1, r.2)

/-- How deep arrays and objects may lie in each other. -/
def maxDepth : Nat := 127

def parse? (text : List Char) : Option Json :=
  match value? (text.length + 1) maxDepth (skipSpace text) with
  | some (j, rest) => if (skipSpace rest).isEmpty then some j else none
  | none => none

end ProcessChart.Json
