import ProcessChart.Record.Source

/-!
A schema says which fields a record has, in their declared order, and how each
is read. A record of the text gives its fields by name, and a list of the text
gives them by position. Of several faults the first met in the text is told, and
a missing field only when everything present was read.
-/
namespace ProcessChart

inductive Presence where
  | required
  /-- May be left out of a record, but not of a list. -/
  | optionalByName
  | optional
deriving DecidableEq, Repr

structure Field (σ α : Type) where
  name : String
  presence : Presence
  store : σ → α → Except Fault α

structure Schema (σ α : Type) where
  name : String
  /-- Holds the values of fields that are left out. -/
  initial : α
  fields : List (Field σ α)

namespace Schema

variable {σ α : Type} [Source σ]

def lengthText (s : Schema σ α) : String :=
  "struct " ++ s.name ++ " with " ++ Decimal.natText s.fields.length ++
    (if s.fields.length = 1 then " element" else " elements")

/-- Reads entries in the order of the text; `given` names the fields already read. -/
def readEntries (s : Schema σ α) (given : List String) (partialValue : α) :
    List (Except Fault String × σ) → Except Fault (List String × α)
  | [] => return (given, partialValue)
  | (key, v) :: rest => do
    let key ← key
    match s.fields.find? (·.name = key) with
    | none =>
      Source.visit v
      s.readEntries given partialValue rest
    | some field =>
      if given.contains key then throw (.duplicateField key)
      else
        let value ← field.store v partialValue
        s.readEntries (key :: given) value rest

/-- Reads items by position; `index` is the position of the first of them. -/
def readItems (s : Schema σ α) (index : Nat) (partialValue : α) :
    List (Field σ α) → List σ → Except Fault (α × List σ)
  | [], items => return (partialValue, items)
  | field :: fields, [] =>
    if field.presence = .optional then s.readItems (index + 1) partialValue fields []
    else throw (.wrongLength index s.lengthText)
  | field :: fields, item :: items => do
    let value ← field.store item partialValue
    s.readItems (index + 1) value fields items

def read (s : Schema σ α) (v : σ) : Except Fault α := do
  match ← Source.view v with
  | .record entries =>
    let (given, value) ← s.readEntries [] s.initial entries
    match s.fields.find? fun f => f.presence = .required && !given.contains f.name with
    | some field => throw (.missingField field.name)
    | none => return value
  | .list items =>
    let (value, extra) ← s.readItems 0 s.initial s.fields items
    if !extra.isEmpty && Source.refusesExtraItems σ then
      throw (.wrongLength items.length "fewer elements in array")
    else return value
  | other => throw (.wrongType other.found ("struct " ++ s.name))

end Schema

end ProcessChart
