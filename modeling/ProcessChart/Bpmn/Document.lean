import ProcessChart.Layout.Diagram
import ProcessChart.ProcessGraph.Defect
import ProcessChart.Markup.Piece

/-!
The BPMN document of a laid out process. Its first half names the nodes and
flows of the process; its second half gives each of them a shape or an edge,
whose id is the id of the node or flow with a suffix.
-/
namespace ProcessChart.Bpmn

open Markup

def namespaces : List Attribute :=
  [.verbatim "xmlns:xsi" "http://www.w3.org/2001/XMLSchema-instance",
   .verbatim "xmlns:bpmn" "http://www.omg.org/spec/BPMN/20100524/MODEL",
   .verbatim "xmlns:bpmndi" "http://www.omg.org/spec/BPMN/20100524/DI",
   .verbatim "xmlns:dc" "http://www.omg.org/spec/DD/20100524/DC",
   .verbatim "xmlns:di" "http://www.omg.org/spec/DD/20100524/DI"]

/-- An empty name is written like an absent one. -/
def nameAttribute : Option String → List Attribute
  | some name => if name = "" then [] else [.escaped "name" name]
  | none => []

def nodePiece (n : Node) : Piece :=
  .single ("bpmn:" ++ n.kind.elementName) (.escaped "id" n.id :: nameAttribute n.label)

def flowPiece (f : Flow) : Piece :=
  .single "bpmn:sequenceFlow"
    [.escaped "id" f.id, .escaped "sourceRef" f.source, .escaped "targetRef" f.target]

def processPieces (p : ProcessGraph) : List Piece :=
  [.opening "bpmn:process"
    (.escaped "id" p.id :: nameAttribute p.name ++ [.verbatim "isExecutable" "false"])] ++
  p.nodes.map nodePiece ++ p.flows.map flowPiece ++ [.closing "bpmn:process"]

/-- What ties a shape or an edge to the node or flow it draws. -/
def drawingOf (id : String) : List Attribute :=
  [.escaped "id" (diagramId id), .escaped "bpmnElement" id]

def shapePieces (n : NodePlace) : List Piece :=
  [.opening "bpmndi:BPMNShape" (drawingOf n.id),
   .single "dc:Bounds"
    [.integer "x" n.bounds.x, .integer "y" n.bounds.y,
     .integer "width" n.bounds.width, .integer "height" n.bounds.height],
   .closing "bpmndi:BPMNShape"]

def waypointPiece (point : Point) : Piece :=
  .single "di:waypoint" [.integer "x" point.x, .integer "y" point.y]

def edgePieces (e : EdgeRoute) : List Piece :=
  [.opening "bpmndi:BPMNEdge" (drawingOf e.id)] ++ e.points.map waypointPiece ++
  [.closing "bpmndi:BPMNEdge"]

def diagramPieces (d : Diagram) : List Piece :=
  [.opening "bpmndi:BPMNDiagram" [.verbatim "id" "BPMNDiagram_1"],
   .opening "bpmndi:BPMNPlane"
    [.verbatim "id" "BPMNPlane_1", .escaped "bpmnElement" d.processId]] ++
  d.nodes.flatMap shapePieces ++ d.edges.flatMap edgePieces ++
  [.closing "bpmndi:BPMNPlane", .closing "bpmndi:BPMNDiagram"]

def pieces (p : ProcessGraph) (d : Diagram) : List Piece :=
  [.opening "bpmn:definitions"
    (namespaces ++
      [.verbatim "id" "Definitions_1",
       .verbatim "targetNamespace" "http://bpmn.io/schema/bpmn"])] ++
  processPieces p ++ diagramPieces d ++ [.closing "bpmn:definitions"]

def declaration : String := "<?xml version=\"1.0\" encoding=\"UTF-8\"?>\n"

def document (p : ProcessGraph) (d : Diagram) : String :=
  String.ofList (declaration.toList ++ writePieces " />" (pieces p d))

end ProcessChart.Bpmn
