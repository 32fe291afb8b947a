/-!
A process is a list of typed nodes and a list of flows between them, both in
the order in which they were declared. Nothing is required of a process: flows
may name nodes that do not exist and ids may repeat, so every question below
has an answer on every process.
-/
namespace ProcessChart

inductive NodeKind where
  | startEvent
  | endEvent
  | task
  | exclusiveGateway
deriving DecidableEq, Repr

structure Node where
  id : String
  kind : NodeKind
  label : Option String
deriving DecidableEq, Repr

structure Flow where
  id : String
  source : String
  target : String
deriving DecidableEq, Repr

structure ProcessGraph where
  id : String
  name : Option String
  nodes : List Node
  flows : List Flow
deriving DecidableEq, Repr

namespace NodeKind

/-- The element that stands for a node of this kind in a BPMN document. -/
def elementName : NodeKind → String
  | startEvent => "startEvent"
  | endEvent => "endEvent"
  | task => "task"
  | exclusiveGateway => "exclusiveGateway"

/-- Events have a short name besides the name of their element. -/
def ofName? : String → Option NodeKind
  | "start" => some startEvent
  | "startEvent" => some startEvent
  | "end" => some endEvent
  | "endEvent" => some endEvent
  | "task" => some task
  | "exclusiveGateway" => some exclusiveGateway
  | _ => none

/-- Every name that a node kind can be given, in the order in which they are offered. -/
def names : List String :=
  ["start", "startEvent", "end", "endEvent", "task", "exclusiveGateway"]

theorem ofName?_elementName (k : NodeKind) : ofName? k.elementName = some k := by
  cases k <;> rfl

end NodeKind

namespace ProcessGraph

def empty (id : String) : ProcessGraph := ⟨id, none, [], []⟩

def addNode (p : ProcessGraph) (id : String) (kind : NodeKind) (label : Option String) : ProcessGraph :=
  { p with nodes := p.nodes ++ [⟨id, kind, label⟩] }

def addFlow (p : ProcessGraph) (id source target : String) : ProcessGraph :=
  { p with flows := p.flows ++ [⟨id, source, target⟩] }

/-- The first node that carries the id. -/
def node? (p : ProcessGraph) (id : String) : Option Node := p.nodes.find? (·.id = id)

def nodeIds (p : ProcessGraph) : List String := p.nodes.map (·.id)

def flowIds (p : ProcessGraph) : List String := p.flows.map (·.id)

def hasNode (p : ProcessGraph) (id : String) : Bool := p.nodes.any (·.id = id)

def nodesOfKind (p : ProcessGraph) (kind : NodeKind) : List Node := p.nodes.filter (·.kind = kind)

def flowsFrom (p : ProcessGraph) (id : String) : List Flow := p.flows.filter (·.source = id)

def flowsInto (p : ProcessGraph) (id : String) : List Flow := p.flows.filter (·.target = id)

/-- One entry for every flow that leaves the node, in the order of the flows. -/
def successors (p : ProcessGraph) (id : String) : List String := (p.flowsFrom id).map (·.target)

/-- One entry for every flow that enters the node, in the order of the flows. -/
def predecessors (p : ProcessGraph) (id : String) : List String := (p.flowsInto id).map (·.source)

/-- The first start event, or else the first node. -/
def startId? (p : ProcessGraph) : Option String :=
  (((p.nodesOfKind .startEvent).head?).or p.nodes.head?).map (·.id)

theorem hasNode_iff {p : ProcessGraph} {id : String} : p.hasNode id = true ↔ id ∈ p.nodeIds := by
  simp [hasNode, nodeIds, List.any_eq_true]

theorem mem_successors {p : ProcessGraph} {id x : String} :
    x ∈ p.successors id ↔ ∃ f ∈ p.flows, f.source = id ∧ f.target = x := by
  simp [successors, flowsFrom, and_assoc]

theorem mem_predecessors {p : ProcessGraph} {id x : String} :
    x ∈ p.predecessors id ↔ ∃ f ∈ p.flows, f.target = id ∧ f.source = x := by
  simp [predecessors, flowsInto, and_assoc]

theorem length_successors (p : ProcessGraph) (id : String) :
    (p.successors id).length = (p.flowsFrom id).length := by simp [successors]

theorem mem_nodeIds_of_mem_startId? {p : ProcessGraph} {id : String} (h : id ∈ p.startId?) :
    id ∈ p.nodeIds := by
  obtain ⟨n, hn, rfl⟩ := Option.map_eq_some_iff.mp h
  refine List.mem_map_of_mem ?_
  rcases Option.or_eq_some_iff.mp hn with hn | ⟨-, hn⟩
  · exact (List.mem_filter.mp (List.mem_of_head? hn)).1
  · exact List.mem_of_head? hn

theorem exists_startId? {p : ProcessGraph} (h : p.nodes ≠ []) : ∃ id, id ∈ p.startId? := by
  obtain ⟨n, rest, hnodes⟩ := List.exists_cons_of_ne_nil h
  cases hstart : (p.nodesOfKind .startEvent).head? with
  | none => exact ⟨n.id, by simp [startId?, hstart, hnodes]⟩
  | some m => exact ⟨m.id, by simp [startId?, hstart]⟩

end ProcessGraph

end ProcessChart
