import ProcessChart.Json.Value
import ProcessChart.Record.Schema
import ProcessChart.Decimal.Fixed

/-!
JSON values as a source of records. A whole number never comes from a double,
and a double may come from a whole number.
-/
namespace ProcessChart.Json

def wording : Wording where
  null := "null"
  float x := Decimal.scientific .double (Decimal.binary64 x)

def view : Json → View Json
  | null => .null
  | bool b => .bool b
  | number (.integer i) => .integer i
  | number (.float x) => .float x
  | string s => .string s
  | array items => .list items
  | object fields => .record (fields.map fun f => (.ok f.1, f.2))

def isNull : Json → Bool
  | null => true
  | _ => false

def whole (range : WholeRange) : Json → Except Fault Int
  | number (.integer i) =>
    if range.low ≤ i && i ≤ range.high then .ok i else .error (.wrongValue (.integer i) range.name)
  | other => .error (.wrongType other.view.found range.name)

def float64 : Json → Except Fault Float
  | number (.integer i) => .ok (Decimal.float64 (i < 0) i.natAbs 0)
  | number (.float x) => .ok x
  | other => .error (.wrongType other.view.found "f64")

def float32 : Json → Except Fault Float32
  | number (.integer i) => .ok (Decimal.float32 (i < 0) i.natAbs 0)
  | number (.float x) => .ok x.toFloat32
  | other => .error (.wrongType other.view.found "f32")

instance : Source Json where
  view j := .ok j.view
  isNull := isNull
  whole := whole
  float64 := float64
  float32 := float32
  visit _ := .ok ()
  refusesExtraItems := true

/-- One of several names: a string, or an object with the name as its only key and null as value. -/
def variant {α : Type} (names : List String) (ofName? : String → Option α) (j : Json) :
    Except Fault α :=
  let named (name : String) : Except Fault α :=
    match ofName? name with
    | some a => .ok a
    | none => .error (.unknownVariant name names)
  match j with
  | string s => named s
  | object [(name, value)] => do
    let a ← named name
    if value.isNull then return a else throw (.wrongType value.view.found "unit")
  | object _ => .error (.wrongValue .record "map with a single key")
  | other => .error (.wrongType other.view.found "string or map")

end ProcessChart.Json
