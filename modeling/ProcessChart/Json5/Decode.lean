import ProcessChart.Json5.Syntax
import ProcessChart.Json.Value
import ProcessChart.Record.Source
import ProcessChart.Decimal.Fixed
import ProcessChart.Decimal.Reading

/-!
The values of JSON5 strings and numbers, and JSON5 as a source of records. A
number that is asked for as a number is read as a double and brought to its
width; a number of which nothing is known is whole when it is written so.
-/
namespace ProcessChart.Json5

namespace Component

/-- The component without what introduces it. -/
def text : Component → List Char
  | literal c => [c]
  | escaped c => [c]
  | nul => ['0']
  | hexadecimal digits => digits
  | unicode digits => digits

/-- What a backslash and a character stand for. -/
def escapedChar (c : Char) : Char :=
  if c = 'b' then '\x08'
  else if c = 'f' then '\x0c'
  else if c = 'n' then '\n'
  else if c = 'r' then '\r'
  else if c = 't' then '\t'
  else if c = 'v' then '\x0b'
  else c

end Component

def isLead (unit : Nat) : Bool := 0xD800 ≤ unit && unit ≤ 0xDBFF

def isTrail (unit : Nat) : Bool := 0xDC00 ≤ unit && unit ≤ 0xDFFF

/-- The bits of the two halves laid over each other: exact only while bit 16 of the
first half is clear. -/
def joinSurrogates (lead trail : Nat) : Char :=
  Char.ofNat (((lead - 0xD800) <<< 10) ||| (trail - 0xDC00 + 0x10000))

/-- The component after a leading surrogate is taken for a code unit, whatever it is. -/
def decode : List Component → Except TokenFault (List Char)
  | [] => .ok []
  | .literal c :: rest => do return c :: (← decode rest)
  | .escaped c :: rest => do return Component.escapedChar c :: (← decode rest)
  | .nul :: rest => do return '\x00' :: (← decode rest)
  | .hexadecimal digits :: rest =>
    match Decimal.hex? digits with
    | none => .error .hexadecimal
    | some unit => do return Char.ofNat unit :: (← decode rest)
  | .unicode digits :: rest =>
    match Decimal.hex? digits with
    | none => .error .hexadecimal
    | some unit =>
      if isTrail unit then .error .unexpectedTrail
      else if isLead unit then
        match rest with
        | [] => .error .missingTrail
        | next :: rest =>
          match Decimal.hex? next.text with
          | none => .error .hexadecimal
          | some trail =>
            if isTrail trail then do return joinSurrogates unit trail :: (← decode rest)
            else .error .expectedTrail
      else do return Char.ofNat unit :: (← decode rest)

def decodeText (components : List Component) : Except Fault String :=
  match decode components with
  | .ok cs => .ok (String.ofList cs)
  | .error fault => .error (.token fault)

/-- The digits after the mark of a hexadecimal number without sign. -/
def hexDigitsOf? : List Char → Option (List Char)
  | '0' :: 'x' :: c :: rest => some (c :: rest)
  | '0' :: 'X' :: c :: rest => some (c :: rest)
  | _ => none

/-- Hexadecimal numbers have at most 32 bits. -/
def hexValue (digits : List Char) : Except Fault Nat :=
  match Decimal.hex? digits with
  | some n => if n ≤ 0xFFFFFFFF then .ok n else .error (.token .hexadecimal)
  | none => .error (.token .hexadecimal)

/-- Infinity is a number only without a plus sign. -/
def float (token : List Char) : Except Fault Float :=
  if token = "Infinity".toList then .ok (1 / 0)
  else if token = "-Infinity".toList then .ok (-1 / 0)
  else if token = "NaN".toList || token = "-NaN".toList then .ok (0 / 0)
  else
    match hexDigitsOf? token with
    | some digits => do return Float.ofNat (← hexValue digits)
    | none =>
      match Decimal.numeral? token with
      | none => .error (.token .number)
      | some numeral =>
        let x := numeral.toFloat
        if x.isFinite then .ok x else .error (.token .numberTooLarge)

/-- The names of numbers, with a minus sign or none. -/
def numberNames : List (List Char) :=
  ["Infinity".toList, "-Infinity".toList, "NaN".toList, "-NaN".toList]

/-- Written without point, exponent and name. -/
def isWhole (token : List Char) : Bool :=
  !token.contains '.' &&
  ((hexDigitsOf? token).isSome || (!token.contains 'e' && !token.contains 'E')) &&
  !numberNames.contains token

/-- A signed number of 64 bits; in hexadecimal, without a sign and of 32 bits. -/
def integer (token : List Char) : Except Fault Int :=
  match hexDigitsOf? token with
  | some digits => do return (← hexValue digits)
  | none =>
    let (negative, digits) := Decimal.splitSign token
    let size : Int := Decimal.value digits
    let i := if negative then -size else size
    if digits.isEmpty || !digits.all Decimal.isDigit || i < -0x8000000000000000 || 0x7FFFFFFFFFFFFFFF < i then
      .error (.token .integer)
    else .ok i

def wording : Wording where
  null := "unit value"
  float x :=
    let text := Decimal.plain .double (Decimal.binary64 x)
    if x.isFinite && !text.contains '.' then text ++ ['.', '0'] else text

def view : Json5 → Except Fault (View Json5)
  | null => .ok .null
  | bool b => .ok (.bool b)
  | number token =>
    if isWhole token then do return .integer (← integer token)
    else do return .float (← float token)
  | string components => do return .string (← decodeText components)
  | array items => .ok (.list items)
  | object entries => .ok (.record (entries.map fun e => (decodeText e.1, e.2)))

def isNull : Json5 → Bool
  | null => true
  | _ => false

/-- Anything but a number is a malformed number. -/
def float64 : Json5 → Except Fault Float
  | number token => float token
  | _ => .error (.token .number)

/-- The fraction is cut off, and a number beyond the range becomes the nearest end. -/
def whole (range : WholeRange) (j : Json5) : Except Fault Int := do
  match Decimal.binary64 (← float64 j) with
  | .nan => return 0
  | .infinite negative => return if negative then range.low else range.high
  | .finite negative significand exponent =>
    let (n, d) := Decimal.inUnits 2 significand 1 (-exponent)
    let size : Int := (n / d : Nat)
    return max range.low (min (if negative then -size else size) range.high)

mutual

/-- Reads every token of a value. -/
def visit : Json5 → Except Fault Unit
  | null => .ok ()
  | bool _ => .ok ()
  | number token => if isWhole token then discard (integer token) else discard (float token)
  | string components => discard (decodeText components)
  | array items => visitItems items
  | object entries => visitEntries entries

def visitItems : List Json5 → Except Fault Unit
  | [] => .ok ()
  | item :: rest => do
    visit item
    visitItems rest

def visitEntries : List (List Component × Json5) → Except Fault Unit
  | [] => .ok ()
  | (key, value) :: rest => do
    discard (decodeText key)
    visit value
    visitEntries rest

end

instance : Source Json5 where
  view := view
  isNull := isNull
  whole := whole
  float64 := float64
  float32 j := do return (← float64 j).toFloat32
  visit := visit
  refusesExtraItems := false

mutual

/-- The JSON value; what is no finite number becomes null. -/
def toJson : Json5 → Except Fault Json
  | null => .ok .null
  | bool b => .ok (.bool b)
  | number token =>
    if isWhole token then do return .int (← integer token)
    else do
      let x ← float token
      return if x.isFinite then .number (.float x) else .null
  | string components => do return .string (← decodeText components)
  | array items => do return .array (← itemsToJson items)
  | object entries => do return .object (Json.sortFields (← entriesToJson entries))

def itemsToJson : List Json5 → Except Fault (List Json)
  | [] => .ok []
  | item :: rest => do
    let value ← toJson item
    return value :: (← itemsToJson rest)

def entriesToJson : List (List Component × Json5) → Except Fault (List (String × Json))
  | [] => .ok []
  | (key, value) :: rest => do
    let name ← decodeText key
    let value ← toJson value
    return (name, value) :: (← entriesToJson rest)

end

end ProcessChart.Json5
