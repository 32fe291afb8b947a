import ProcessChart.ProcessGraph.Basic

/-!
The structural defects of a process. `ProcessGraph.defects` lists them in a fixed
order: missing events, open gateways, dangling flows, repeated ids, and last
the ids that the written BPMN document would contain twice. A process is valid
when the list is empty.
-/
namespace ProcessChart

inductive Defect where
  | missingStart
  | missingEnd
  | openGateway (id : String)
  | danglingFlow (id : String)
  | duplicateNodeId (id : String)
  | duplicateFlowId (id : String)
  | flowIdCollision (id : String)
  | documentIdCollision (id : String)
deriving DecidableEq, Repr

def Defect.message : Defect → String
  | missingStart => "no start event found"
  | missingEnd => "no end event found"
  | openGateway id => "gateway " ++ id ++ " has open edges"
  | danglingFlow id => "flow " ++ id ++ " references unknown nodes"
  | duplicateNodeId id => "node id " ++ id ++ " is used more than once"
  | duplicateFlowId id => "flow id " ++ id ++ " is used more than once"
  | flowIdCollision id => "flow id " ++ id ++ " collides with a node id"
  | documentIdCollision id => "id " ++ id ++ " clashes with another id of the BPMN document"

/-- Ids that every BPMN document uses for its own containers. -/
def reservedIds : List String := ["Definitions_1", "BPMNDiagram_1", "BPMNPlane_1"]

/-- The id of the shape or edge that draws the node or flow `id`. -/
def diagramId (id : String) : String := id ++ "_di"

/-- Each id that occurs again after its first occurrence, once, in the order of
the second occurrences. -/
def repeatedFrom (seen reported : List String) : List String → List String
  | [] => []
  | id :: rest =>
    if id ∈ seen then
      if id ∈ reported then repeatedFrom seen reported rest
      else id :: repeatedFrom seen (id :: reported) rest
    else repeatedFrom (id :: seen) reported rest

def repeated (ids : List String) : List String := repeatedFrom [] [] ids

namespace ProcessGraph

def isOpenGateway (p : ProcessGraph) (n : Node) : Bool :=
  (p.flowsInto n.id).isEmpty || (p.flowsFrom n.id).isEmpty

def isDangling (p : ProcessGraph) (f : Flow) : Bool :=
  !p.hasNode f.source || !p.hasNode f.target

/-- The ids of nodes and flows, which the document carries a second time as diagram ids. -/
def structuralIds (p : ProcessGraph) : List String := p.nodeIds ++ p.flowIds

/-- The id is reserved, or some node or flow is drawn under it. -/
def isTaken (p : ProcessGraph) (id : String) : Bool :=
  reservedIds.contains id || (p.structuralIds.map diagramId).contains id

/-- The process id comes first, and clashes also with a node or flow id. -/
def documentCollisions (p : ProcessGraph) : List String :=
  let own := if p.isTaken p.id || p.structuralIds.contains p.id then [p.id] else []
  (own ++ p.structuralIds.filter p.isTaken).eraseDups

def defects (p : ProcessGraph) : List Defect :=
  (if (p.nodesOfKind .startEvent).isEmpty then [.missingStart] else []) ++
  (if (p.nodesOfKind .endEvent).isEmpty then [.missingEnd] else []) ++
  ((p.nodesOfKind .exclusiveGateway).filter p.isOpenGateway).map (.openGateway ·.id) ++
  (p.flows.filter p.isDangling).map (.danglingFlow ·.id) ++
  (repeated p.nodeIds).map .duplicateNodeId ++
  (repeated p.flowIds).map .duplicateFlowId ++
  (p.flowIds.filter p.hasNode).eraseDups.map .flowIdCollision ++
  p.documentCollisions.map .documentIdCollision

def isValid (p : ProcessGraph) : Bool := p.defects.isEmpty

end ProcessGraph

end ProcessChart
