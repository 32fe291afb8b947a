import ProcessChart.Json.Number

/-!
The value of a JSON text. Objects keep their fields as a list; a text that is
read has them by increasing key and each key once, a value that is written has
them in the order in which they shall appear.
-/
namespace ProcessChart

inductive Json where
  | null
  | bool (b : Bool)
  | number (n : Json.Number)
  | string (s : String)
  | array (items : List Json)
  | object (fields : List (String × Json))

namespace Json

instance : Inhabited Json := ⟨.null⟩

def int (i : Int) : Json := .number (.integer i)

def nat (n : Nat) : Json := .number (.integer n)

/-- An absent text is null. -/
def optionalString : Option String → Json
  | some s => .string s
  | none => .null

/-- The value of a key; what is no object has no keys. -/
def field? (j : Json) (key : String) : Option Json :=
  match j with
  | object fields => fields.lookup key
  | _ => none

/-- The fields of an object in the order of their keys, the last of several equal keys winning. -/
def insertField (key : String) (value : Json) : List (String × Json) → List (String × Json)
  | [] => [(key, value)]
  | (k, v) :: rest =>
    if key.toList < k.toList then (key, value) :: (k, v) :: rest
    else if key = k then (k, value) :: rest
    else (k, v) :: insertField key value rest

def sortFields (fields : List (String × Json)) : List (String × Json) :=
  fields.foldl (fun sorted f => insertField f.1 f.2 sorted) []

end Json

end ProcessChart
