import ProcessChart.Text.Quoted

/-!
Reading a markup document back to see whether it is one. The document is a
single element; elements are closed in the order of their nesting, attributes
are quoted and named once, and references are numbers or one of the five
entities. Of several flaws the first met in the text is told, with its place.
-/
namespace ProcessChart.Markup

inductive Flaw where
  | foreignChar (c : Char)
  | expected (what : String) (found : Char)
  | invalidName
  | malformedReference
  | unknownReference (name : String)
  | duplicateAttribute (name : String)
  | wrongClosing (expected found : String)
  | unknownToken
  | unclosedRoot
  | endOfText

/-- A flaw, and how many characters of the text are left where it lies. -/
structure Misreading where
  flaw : Flaw
  left : Nat

/-- Line and column, both counted from one. -/
def place (before : List Char) : String :=
  Decimal.natText ((before.filter (· = '\n')).length + 1) ++ ":" ++
    Decimal.natText ((before.reverse.takeWhile (· ≠ '\n')).length + 1)

def Misreading.message (m : Misreading) (text : List Char) : String :=
  let site := " at " ++ place (text.take (text.length - m.left))
  match m.flaw with
  | .foreignChar c =>
    "a non-XML character '" ++ String.ofList (Text.quotedChar c) ++ "' found" ++ site
  | .expected what found => "expected " ++ what ++ " not '" ++ String.singleton found ++ "'" ++ site
  | .invalidName => "invalid name token" ++ site
  | .malformedReference => "malformed entity reference" ++ site
  | .unknownReference name => "unknown entity reference '" ++ name ++ "'" ++ site
  | .duplicateAttribute name => "attribute '" ++ name ++ "'" ++ site ++ " is already defined"
  | .wrongClosing expected found =>
    "expected '" ++ expected ++ "' tag, not '" ++ found ++ "'" ++ site
  | .unknownToken => "unknown token" ++ site
  | .unclosedRoot => "the root node was opened but never closed"
  | .endOfText => "unexpected end of stream"

abbrev Read (α : Type) := Except Misreading α

def flawAt {α : Type} (flaw : Flaw) (rest : List Char) : Read α := .error ⟨flaw, rest.length⟩

def isSpace (c : Char) : Bool := c = ' ' || c = '\t' || c = '\n' || c = '\r'

def skipSpace (cs : List Char) : List Char := cs.dropWhile isSpace

/-- Whether the character may stand in a document at all. -/
def isDocumentChar (c : Char) : Bool :=
  if c.toNat < 32 then isSpace c else c.toNat ≠ 0xFFFE && c.toNat ≠ 0xFFFF

def within (c : Char) (low high : Nat) : Bool := low ≤ c.toNat && c.toNat ≤ high

def startsName (c : Char) : Bool :=
  within c 0x41 0x5A || within c 0x61 0x7A || c = ':' || c = '_' || within c 0xC0 0xD6 ||
  within c 0xD8 0xF6 || within c 0xF8 0x2FF || within c 0x370 0x37D || within c 0x37F 0x1FFF ||
  within c 0x200C 0x200D || within c 0x2070 0x218F || within c 0x2C00 0x2FEF ||
  within c 0x3001 0xD7FF || within c 0xF900 0xFDCF || within c 0xFDF0 0xFFFD ||
  within c 0x10000 0xEFFFF

def continuesName (c : Char) : Bool :=
  startsName c || Decimal.isDigit c || c = '-' || c = '.' || c.toNat = 0xB7 ||
  within c 0x300 0x36F || within c 0x203F 0x2040

/-- A character beyond ASCII is told by the first byte of its encoding. -/
def firstByte (c : Char) : Char :=
  let n := c.toNat
  if n < 0x80 then c
  else if n < 0x800 then Char.ofNat (0xC0 + n / 0x40)
  else if n < 0x10000 then Char.ofNat (0xE0 + n / 0x1000)
  else Char.ofNat (0xF0 + n / 0x40000)

/-- The text after one certain character. -/
def readChar (c : Char) (cs : List Char) : Read (List Char) :=
  match cs with
  | [] => flawAt .endOfText cs
  | x :: rest =>
    if x = c then .ok rest
    else flawAt (.expected (String.ofList ['\'', c, '\'']) (firstByte x)) cs

/-- A name has at most one colon, and what follows the colon is a name of its own. -/
def readName (cs : List Char) : Read (List Char × List Char) :=
  let name := cs.takeWhile continuesName
  let front := name.takeWhile (· ≠ ':')
  let colon := front.length < name.length
  let main := if colon then name.drop (front.length + 1) else name
  let frontFits := !colon || front.head?.all startsName
  if frontFits && main.head?.any startsName && !main.contains ':' then
    .ok (name, cs.drop name.length)
  else flawAt .invalidName cs

/-- What follows an ampersand: the name of the reference if it has one, and the text after it. -/
def reference? (cs : List Char) : Option (Option (List Char) × List Char) :=
  let ended (name : Option (List Char)) : List Char → Option (Option (List Char) × List Char)
    | ';' :: rest => some (name, rest)
    | _ => none
  let numbered (number : Option Nat) (rest : List Char) :
      Option (Option (List Char) × List Char) :=
    match number with
    | none => none
    | some n =>
      if 0xFFFFFFFF < n || (n.isValidChar && !isDocumentChar (Char.ofNat n)) then none
      else ended none rest
  match cs with
  | '#' :: 'x' :: rest =>
    let digits := rest.takeWhile fun c => (Decimal.hexDigit? c).isSome
    numbered (Decimal.hex? digits) (rest.drop digits.length)
  | '#' :: rest =>
    let digits := rest.takeWhile Decimal.isDigit
    numbered (if digits.isEmpty then none else some (Decimal.value digits))
      (rest.drop digits.length)
  | _ =>
    let name := cs.takeWhile continuesName
    if name.head?.any startsName then ended (some name) (cs.drop name.length) else none

def entityNames : List String := ["quot", "amp", "apos", "lt", "gt"]

/-- Checks the references of a stretch of text that has `after` characters behind it. -/
def checkReferences (after : Nat) : List Char → Read Unit
  | [] => .ok ()
  | c :: rest =>
    if c = '&' then
      match reference? rest with
      | none => .error ⟨.malformedReference, after + rest.length + 1⟩
      | some (some name, _) =>
        if entityNames.contains (String.ofList name) then checkReferences after rest
        else .error ⟨.unknownReference (String.ofList name), after + rest.length + 1⟩
      | some (none, _) => checkReferences after rest
    else checkReferences after rest

/-- The text after a stretch that ends before an opening bracket or a stop. -/
def readStretch (stop : Char) (cs : List Char) : Read (List Char × List Char) :=
  let stretch := cs.takeWhile fun c => isDocumentChar c && c ≠ '<' && c ≠ stop
  match cs.drop stretch.length with
  | [] => .ok (stretch, [])
  | c :: rest =>
    if isDocumentChar c then .ok (stretch, c :: rest) else flawAt (.foreignChar c) (c :: rest)

/-- An attribute with its value in quotes. Gives its name. -/
def readAttribute (cs : List Char) : Read (List Char × List Char) := do
  let (name, rest) ← readName cs
  let rest ← readChar '=' (skipSpace rest)
  match skipSpace rest with
  | [] => flawAt .endOfText []
  | quote :: more =>
    if quote = '"' || quote = '\'' then
      let (value, rest) ← readStretch quote more
      let rest' ← readChar quote rest
      checkReferences rest.length value
      return (name, rest')
    else flawAt (.expected "a quote" (firstByte quote)) (quote :: more)

/-- The first attribute whose name stands before it. Each comes with what is left of the text. -/
def repeatedAttribute? (earlier : List (List Char)) :
    List (List Char × Nat) → Option (List Char × Nat)
  | [] => none
  | a :: rest => if earlier.contains a.1 then some a else repeatedAttribute? (a.1 :: earlier) rest

/-- The rest of a tag after its name. Says whether the tag opens an element with content. -/
def readAttributes (attributes : List (List Char × Nat)) :
    Nat → List Char → Read (Bool × List Char)
  | 0, cs => flawAt .endOfText cs
  | limit + 1, cs =>
    let finish (opens : Bool) (rest : List Char) : Read (Bool × List Char) :=
      match repeatedAttribute? [] attributes with
      | some (name, left) => .error ⟨.duplicateAttribute (String.ofList name), left⟩
      | none => .ok (opens, rest)
    match skipSpace cs with
    | [] => flawAt .endOfText []
    | '/' :: rest => do finish false (← readChar '>' rest)
    | '>' :: rest => finish true rest
    | c :: rest =>
      if cs.head?.any isSpace then do
        let (name, after) ← readAttribute (c :: rest)
        readAttributes (attributes ++ [(name, rest.length + 1)]) limit after
      else flawAt (.expected "a whitespace" (firstByte c)) (c :: rest)

/-- A tag after its opening bracket: the elements open behind it, and the text after it. -/
def readTag (elements : List (List Char)) (cs : List Char) : Read (List (List Char) × List Char) := do
  let (name, rest) ← readName cs
  let (opens, rest) ← readAttributes [] (rest.length + 1) rest
  return (if opens then name :: elements else elements, rest)

/-- A closing tag after its opening bracket and stroke; it closes the innermost element. -/
def readClosing (name : List Char) (cs : List Char) : Read (List Char) := do
  let (found, rest) ← readName cs
  let rest ← readChar '>' (skipSpace rest)
  if found = name then return rest
  else .error ⟨.wrongClosing (String.ofList name) (String.ofList found), cs.length + 2⟩

/-- Reads on inside the open elements, the innermost first; behind the last there is nothing. -/
def readContent : Nat → List (List Char) → List Char → Read Unit
  | 0, _, cs => flawAt .unknownToken cs
  | _, [], cs => if (skipSpace cs).isEmpty then .ok () else flawAt .unknownToken (skipSpace cs)
  | limit + 1, name :: elements, cs =>
    match cs with
    | [] => flawAt .unclosedRoot []
    | '<' :: '/' :: rest => do readContent limit elements (← readClosing name rest)
    | '<' :: rest =>
      if rest.head?.any fun c => c ≠ '!' && c ≠ '?' then do
        let (elements, rest) ← readTag (name :: elements) rest
        readContent limit elements rest
      else flawAt .unknownToken cs
    | _ => do
      let (stretch, rest) ← readStretch '<' cs
      checkReferences rest.length stretch
      readContent limit (name :: elements) rest

/-- Reads a document that begins with its element. -/
def readDocument (text : List Char) : Read Unit :=
  match text with
  | '<' :: rest => do
    let (elements, rest) ← readTag [] rest
    readContent (rest.length + 1) elements rest
  | _ => flawAt .unknownToken text

end ProcessChart.Markup
