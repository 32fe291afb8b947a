import ProcessChart.Json.Decode
import ProcessChart.ProcessGraph.Basic

/-!
The JSON form of a process. A document is an object whose only field holds the
process; names and labels that are absent are left out.
-/
namespace ProcessChart

def NodeKind.read : Json → Except Fault NodeKind := Json.variant NodeKind.names NodeKind.ofName?

namespace Node

def schema : Schema Json Node where
  name := "ProcessNode"
  initial := ⟨"", .task, none⟩
  fields :=
    [⟨"id", .required, fun v n => return { n with id := ← Source.string v }⟩,
     ⟨"type", .required, fun v n => return { n with kind := ← NodeKind.read v }⟩,
     ⟨"name", .optional, fun v n => return { n with label := ← Source.optional Source.string v }⟩]

def toJson (n : Node) : Json :=
  .object <|
    [("id", .string n.id), ("type", .string n.kind.elementName)] ++
    n.label.toList.map fun label => ("name", .string label)

end Node

namespace Flow

def schema : Schema Json Flow where
  name := "SequenceFlow"
  initial := ⟨"", "", ""⟩
  fields :=
    [⟨"id", .required, fun v f => return { f with id := ← Source.string v }⟩,
     ⟨"source", .required, fun v f => return { f with source := ← Source.string v }⟩,
     ⟨"target", .required, fun v f => return { f with target := ← Source.string v }⟩]

def toJson (f : Flow) : Json :=
  .object [("id", .string f.id), ("source", .string f.source), ("target", .string f.target)]

end Flow

namespace ProcessGraph

def schema : Schema Json ProcessGraph where
  name := "ProcessModel"
  initial := .empty ""
  fields :=
    [⟨"id", .required, fun v p => return { p with id := ← Source.string v }⟩,
     ⟨"name", .optional, fun v p => return { p with name := ← Source.optional Source.string v }⟩,
     ⟨"nodes", .optional, fun v p => return { p with nodes := ← Source.list Node.schema.read v }⟩,
     ⟨"flows", .optional, fun v p => return { p with flows := ← Source.list Flow.schema.read v }⟩]

def toJson (p : ProcessGraph) : Json :=
  .object <|
    [("id", .string p.id)] ++ (p.name.toList.map fun name => ("name", .string name)) ++
    [("nodes", .array (p.nodes.map Node.toJson)), ("flows", .array (p.flows.map Flow.toJson))]

/-- The schema of the object around a process. -/
def documentSchema : Schema Json ProcessGraph where
  name := "ProcessDocument"
  initial := .empty ""
  fields := [⟨"process", .required, fun v _ => schema.read v⟩]

def toDocument (p : ProcessGraph) : Json := .object [("process", p.toJson)]

end ProcessGraph

end ProcessChart
