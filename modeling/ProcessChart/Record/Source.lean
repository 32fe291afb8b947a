import ProcessChart.Record.Fault

/-!
A source is a format whose values can be asked for records, strings and numbers.
The formats differ in how they read numbers, in whether a list may have more
items than a record has fields, and in when a malformed token is noticed; what
is built from their values is the same for all.
-/
namespace ProcessChart

/-- The outermost form of a value. Keys are read one at a time, when they are reached. -/
inductive View (σ : Type) where
  | null
  | bool (b : Bool)
  | integer (i : Int)
  | float (x : Float)
  | string (s : String)
  | list (items : List σ)
  | record (entries : List (Except Fault String × σ))

def View.found {σ : Type} : View σ → Found
  | null => .null
  | bool b => .bool b
  | integer i => .integer i
  | float x => .float x
  | string s => .string s
  | list _ => .list
  | record _ => .record

/-- The whole numbers of a fixed width, with the name by which they are asked for. -/
structure WholeRange where
  name : String
  low : Int
  high : Int

namespace WholeRange

def unsigned32 : WholeRange := ⟨"u32", 0, 0xFFFFFFFF⟩
def unsigned64 : WholeRange := ⟨"u64", 0, 0xFFFFFFFFFFFFFFFF⟩
def index : WholeRange := ⟨"usize", 0, 0xFFFFFFFFFFFFFFFF⟩
def signed32 : WholeRange := ⟨"i32", -0x80000000, 0x7FFFFFFF⟩

end WholeRange

class Source (σ : Type) where
  view : σ → Except Fault (View σ)
  isNull : σ → Bool
  whole : WholeRange → σ → Except Fault Int
  float64 : σ → Except Fault Float
  float32 : σ → Except Fault Float32
  /-- Reads a value that nobody asked for; a malformed token in it is still a fault. -/
  visit : σ → Except Fault Unit
  /-- A list that stands for a record must not have more items than the record has fields. -/
  refusesExtraItems : Bool

namespace Source

variable {σ α : Type} [Source σ]

def string (v : σ) : Except Fault String := do
  match ← view v with
  | .string s => return s
  | other => throw (.wrongType other.found "a string")

def bool (v : σ) : Except Fault Bool := do
  match ← view v with
  | .bool b => return b
  | other => throw (.wrongType other.found "a boolean")

def natural (range : WholeRange) (v : σ) : Except Fault Nat := do
  return (← whole range v).toNat

/-- Null stands for absence. -/
def optional (read : σ → Except Fault α) (v : σ) : Except Fault (Option α) :=
  if isNull v then return none else some <$> read v

def list (read : σ → Except Fault α) (v : σ) : Except Fault (List α) := do
  match ← view v with
  | .list items => items.mapM read
  | other => throw (.wrongType other.found "a sequence")

/-- A list of exactly this length. -/
def vector (length : Nat) (read : σ → Except Fault α) (v : σ) : Except Fault (List α) := do
  match ← view v with
  | .list items =>
    let values ← (items.take length).mapM read
    if values.length < length then
      throw (.wrongLength values.length ("an array of length " ++ Decimal.natText length))
    else if length < items.length && refusesExtraItems σ then
      throw (.wrongLength items.length "fewer elements in array")
    else return values
  | other =>
    throw (.wrongType other.found ("an array of length " ++ Decimal.natText length))

/-- A record with any keys, all of whose values have one form. -/
def table (read : σ → Except Fault α) (v : σ) : Except Fault (List (String × α)) := do
  match ← view v with
  | .record entries => entries.mapM fun e => do
      let key ← e.1
      let value ← read e.2
      return (key, value)
  | other => throw (.wrongType other.found "a map")

end Source

end ProcessChart
