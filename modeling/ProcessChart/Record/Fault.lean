import ProcessChart.Text.Quoted

/-!
Why a value of a data text does not have the form that was asked for, and how
that is told.
-/
namespace ProcessChart

/-- What stands in the text instead. -/
inductive Found where
  | null
  | bool (b : Bool)
  | integer (i : Int)
  | float (x : Float)
  | string (s : String)
  | list
  | record

/-- A string or number that cannot be read although its place in the text is right. -/
inductive TokenFault where
  | hexadecimal
  | integer
  | number
  | numberTooLarge
  | missingTrail
  | expectedTrail
  | unexpectedTrail
deriving DecidableEq, Repr

inductive Fault where
  | wrongType (found : Found) (expected : String)
  | wrongValue (found : Found) (expected : String)
  | wrongLength (length : Nat) (expected : String)
  | unknownVariant (name : String) (expected : List String)
  | missingField (name : String)
  | duplicateField (name : String)
  | token (fault : TokenFault)

/-- The words in which the formats differ. -/
structure Wording where
  null : String
  float : Float → List Char

def TokenFault.message : TokenFault → String
  | hexadecimal => "error parsing hex"
  | integer => "error parsing integer"
  | number => "error parsing number"
  | numberTooLarge => "error parsing number: too large"
  | missingTrail => "missing unicode trail surrogate"
  | expectedTrail => "expecting unicode trail surrogate"
  | unexpectedTrail => "unexpected unicode trail surrogate"

def inTicks (s : String) : String := "`" ++ s ++ "`"

def Found.describe (w : Wording) : Found → String
  | null => w.null
  | bool b => "boolean " ++ inTicks (if b then "true" else "false")
  | integer i => "integer " ++ inTicks (Decimal.intText i)
  | float x => "floating point " ++ inTicks (String.ofList (w.float x))
  | string s => "string " ++ Text.quoted s
  | list => "sequence"
  | record => "map"

def Fault.message (w : Wording) : Fault → String
  | wrongType found expected =>
    "invalid type: " ++ found.describe w ++ ", expected " ++ expected
  | wrongValue found expected =>
    "invalid value: " ++ found.describe w ++ ", expected " ++ expected
  | wrongLength length expected =>
    "invalid length " ++ Decimal.natText length ++ ", expected " ++ expected
  | unknownVariant name expected =>
    "unknown variant " ++ inTicks name ++ ", expected one of " ++
      ", ".intercalate (expected.map inTicks)
  | missingField name => "missing field " ++ inTicks name
  | duplicateField name => "duplicate field " ++ inTicks name
  | token fault => fault.message

end ProcessChart
