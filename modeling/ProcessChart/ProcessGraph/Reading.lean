import ProcessChart.ProcessGraph.Document
import ProcessChart.Json.Reader
import ProcessChart.Json5.Decode
import ProcessChart.Text.Fence

/-!
Reading a process from text that may be more than the process alone, such as the
reply of an assistant. The whole text is tried first, then its first fenced
block, then the part between its outer braces; each of them may be JSON or
JSON5. The first part that gives a process is taken, and when none does, the
error of the last part is told.
-/
namespace ProcessChart

inductive ReadingError where
  | emptyInput
  | noObject
  | notJson
  | noProcess
  | invalidDocument (fault : Fault)
  | invalidModel (fault : Fault)

def ReadingError.message : ReadingError → String
  | emptyInput => "empty process input"
  | noObject => "no JSON object found in input"
  | notJson => "input is neither JSON nor JSON5"
  | noProcess => "expected a `process` object or a model with `nodes`"
  | invalidDocument _ => "invalid process document"
  | invalidModel _ => "invalid process model"

/-- What is wrong inside a document that was found. -/
def ReadingError.cause? : ReadingError → Option String
  | invalidDocument fault => some (fault.message Json.wording)
  | invalidModel fault => some (fault.message Json.wording)
  | _ => none

namespace ProcessGraph

/-- JSON5 is tried only where strict JSON fails. -/
def jsonOfText? (text : List Char) : Option Json :=
  (Json.parse? text).or <| (Json5.parse? text).bind fun j =>
    match j.toJson with
    | .ok value => some value
    | .error _ => none

/-- A document holds its process under a key; a bare process is known by its nodes. -/
def ofJson (j : Json) : Except ReadingError ProcessGraph :=
  if (j.field? "process").isSome then (documentSchema.read j).mapError .invalidDocument
  else if (j.field? "nodes").isSome then (schema.read j).mapError .invalidModel
  else .error .noProcess

/-- Reads one part of a text, which must be a value and nothing else. -/
def ofPart (text : List Char) : Except ReadingError ProcessGraph :=
  match jsonOfText? text with
  | some j => ofJson j
  | none => .error .notJson

/-- The first success, or else the last error. -/
def firstOf (last : ReadingError) : List (List Char) → Except ReadingError ProcessGraph
  | [] => .error last
  | part :: rest =>
    match ofPart part with
    | .ok p => .ok p
    | .error e => firstOf e rest

/-- The parts of a text that may be a process, in the order in which they are tried. -/
def parts (text : List Char) : List (List Char) :=
  [text] ++ (Text.fenced? text).toList ++ (Text.braced? text).toList

def ofText (text : String) : Except ReadingError ProcessGraph :=
  let trimmed := Text.trim text.toList
  if trimmed.isEmpty then .error .emptyInput
  else if !trimmed.contains '\x7b' then .error .noObject
  else firstOf .noObject (parts trimmed)

end ProcessGraph

end ProcessChart
