import ProcessChart.Bpmn.Document
import ProcessChart.Proofs.Tags

/-!
What a written document tells. Two laid out processes are written alike exactly
when they agree in everything but empty names and in where each node and flow
is drawn.
-/

namespace ProcessChart

/-- An empty name is not shown. -/
def shownName (name : Option String) : Option String := name.filter (· ≠ "")

def Node.shown (n : Node) : Node := { n with label := shownName n.label }

/-- A process with its empty names taken for absent ones. -/
def ProcessGraph.shown (p : ProcessGraph) : ProcessGraph :=
  { p with name := shownName p.name, nodes := p.nodes.map Node.shown }

/-- What the shape of a node tells: which node it is and where it lies. -/
def NodePlace.drawn (n : NodePlace) : String × Bounds := (n.id, n.bounds)

/-- What the edge of a flow tells: which flow it is and where it runs. -/
def EdgeRoute.drawn (e : EdgeRoute) : String × List Point := (e.id, e.points)

theorem ProcessGraph.shown_eq_iff {p q : ProcessGraph} :
    p.shown = q.shown ↔
      (p.id = q.id ∧ shownName p.name = shownName q.name) ∧
        p.nodes.map Node.shown = q.nodes.map Node.shown ∧ p.flows = q.flows := by
  simp [shown, and_assoc]

theorem NodeKind.elementName_injective : Function.Injective NodeKind.elementName := by
  intro k l h
  have hname := congrArg NodeKind.ofName? h
  rw [ofName?_elementName, ofName?_elementName] at hname
  exact Option.some.inj hname

namespace Bpmn

open Markup

theorem nameAttribute_eq (name : Option String) :
    nameAttribute name = (shownName name).toList.map (.escaped "name") := by
  cases name with
  | none => rfl
  | some name =>
    rw [nameAttribute, shownName]
    by_cases h : name = ""
    · rw [if_pos h, Option.filter_some_neg (by simpa using h)]
      rfl
    · rw [if_neg h, Option.filter_some_pos (by simpa using h)]
      rfl

theorem nameAttribute_inj {a b : Option String} :
    nameAttribute a = nameAttribute b ↔ shownName a = shownName b := by
  rw [nameAttribute_eq, nameAttribute_eq,
    List.map_inj_right fun x y h => Attribute.escaped_inj.mp h]
  constructor
  · intro h
    rw [← Option.head?_toList (o := shownName a), h, Option.head?_toList]
  · intro h
    rw [h]

def tagName : Piece → String
  | .opening name _ => name
  | .closing name => name
  | .single name _ => name
  | .text _ => ""

def BeginsWith (names : List String) (tags : List Piece) : Prop :=
  ∃ x ∈ tags.head?, tagName x ∈ names

theorem beginsWith_cons {names : List String} {x : Piece} {rest : List Piece} :
    BeginsWith names (x :: rest) ↔ tagName x ∈ names := by
  simp [BeginsWith]

def nodeTags : List String :=
  ["bpmn:startEvent", "bpmn:endEvent", "bpmn:task", "bpmn:exclusiveGateway"]

theorem tagName_nodePiece (n : Node) : tagName (nodePiece n) ∈ nodeTags := by
  rw [nodePiece, tagName]
  cases n.kind <;> decide

theorem nodePiece_inj (m n : Node) : nodePiece m = nodePiece n ↔ m.shown = n.shown := by
  have hkind : "bpmn:" ++ m.kind.elementName = "bpmn:" ++ n.kind.elementName ↔
      m.kind = n.kind := by
    rw [String.append_right_inj, NodeKind.elementName_injective.eq_iff]
  rw [nodePiece, nodePiece, Piece.single.injEq, List.cons.injEq, hkind, Attribute.escaped_inj,
    nameAttribute_inj, Node.shown, Node.shown, Node.mk.injEq, and_left_comm]

theorem tagName_flowPiece (f : Flow) : tagName (flowPiece f) ∈ ["bpmn:sequenceFlow"] :=
  List.mem_cons_self

theorem flowPiece_inj (f g : Flow) : flowPiece f = flowPiece g ↔ f = g := by
  cases f
  cases g
  simp [flowPiece, Attribute.escaped_inj]

theorem drawingOf_inj {a b : String} : drawingOf a = drawingOf b ↔ a = b := by
  simp only [drawingOf, List.cons.injEq, Attribute.escaped_inj, and_true]
  exact ⟨And.right, fun h => ⟨congrArg diagramId h, h⟩⟩

theorem tagName_waypointPiece (point : Point) :
    tagName (waypointPiece point) ∈ ["di:waypoint"] :=
  List.mem_cons_self

theorem waypointPiece_inj (a b : Point) : waypointPiece a = waypointPiece b ↔ a = b := by
  cases a
  cases b
  simp [waypointPiece, Attribute.integer_inj]

/-- One tag for every item shows the items, up to what the tag leaves out. -/
theorem selfDelimiting_tag {α γ : Type} {tag : α → Piece} {content : α → γ} {names : List String}
    (hnames : ∀ a, tagName (tag a) ∈ names)
    (hinj : ∀ a b, tag a = tag b ↔ content a = content b) :
    SelfDelimiting (fun a => [tag a]) content (fun _ => True) (BeginsWith names) where
  starts := by
    intro a rest _
    exact beginsWith_cons.mpr (hnames a)
  append_eq_iff := by
    intro a b r s _ _
    rw [List.singleton_append, List.singleton_append, List.cons.injEq, hinj a b]

theorem map_tag_append_eq_iff {α γ : Type} {tag : α → Piece} {content : α → γ}
    {names : List String} (hnames : ∀ a, tagName (tag a) ∈ names)
    (hinj : ∀ a b, tag a = tag b ↔ content a = content b) {xs ys : List α} {r s : List Piece}
    (hr : ¬ BeginsWith names r) (hs : ¬ BeginsWith names s) :
    xs.map tag ++ r = ys.map tag ++ s ↔ xs.map content = ys.map content ∧ r = s := by
  rw [List.map_eq_flatMap, List.map_eq_flatMap]
  exact (selfDelimiting_tag hnames hinj).flatMap_append_eq_iff_of_total hr hs

theorem shapePieces_append (n : NodePlace) (rest : List Piece) :
    shapePieces n ++ rest =
      .opening "bpmndi:BPMNShape" (drawingOf n.id) ::
        .single "dc:Bounds"
          [.integer "x" n.bounds.x, .integer "y" n.bounds.y,
            .integer "width" n.bounds.width, .integer "height" n.bounds.height] ::
        .closing "bpmndi:BPMNShape" :: rest := rfl

theorem selfDelimiting_shape :
    SelfDelimiting shapePieces NodePlace.drawn (fun _ => True)
      (BeginsWith ["bpmndi:BPMNShape"]) where
  starts := by
    intro n rest _
    rw [shapePieces_append]
    exact beginsWith_cons.mpr List.mem_cons_self
  append_eq_iff := by
    intro m n r s _ _
    have hbounds : m.bounds = n.bounds ↔ m.bounds.x = n.bounds.x ∧ m.bounds.y = n.bounds.y ∧
        m.bounds.width = n.bounds.width ∧ m.bounds.height = n.bounds.height := by
      cases m.bounds
      cases n.bounds
      simp
    rw [shapePieces_append, shapePieces_append, NodePlace.drawn, NodePlace.drawn, Prod.mk.injEq,
      hbounds]
    simp [drawingOf_inj, Attribute.integer_inj, and_assoc]

theorem edgePieces_append (e : EdgeRoute) (rest : List Piece) :
    edgePieces e ++ rest =
      .opening "bpmndi:BPMNEdge" (drawingOf e.id) ::
        (e.points.map waypointPiece ++ .closing "bpmndi:BPMNEdge" :: rest) := by
  simp [edgePieces]

theorem selfDelimiting_edge :
    SelfDelimiting edgePieces EdgeRoute.drawn (fun _ => True)
      (BeginsWith ["bpmndi:BPMNEdge"]) where
  starts := by
    intro e rest _
    rw [edgePieces_append]
    exact beginsWith_cons.mpr List.mem_cons_self
  append_eq_iff := by
    intro d e r s _ _
    have hclosing : ∀ rest, ¬ BeginsWith ["di:waypoint"] (.closing "bpmndi:BPMNEdge" :: rest) := by
      intro rest
      rw [beginsWith_cons]
      decide
    have hpoints : d.points.map waypointPiece ++ .closing "bpmndi:BPMNEdge" :: r =
          e.points.map waypointPiece ++ .closing "bpmndi:BPMNEdge" :: s ↔
        d.points.map id = e.points.map id ∧
          Piece.closing "bpmndi:BPMNEdge" :: r = .closing "bpmndi:BPMNEdge" :: s :=
      map_tag_append_eq_iff tagName_waypointPiece waypointPiece_inj (hclosing r) (hclosing s)
    rw [edgePieces_append, edgePieces_append, List.cons.injEq, hpoints, EdgeRoute.drawn,
      EdgeRoute.drawn, Prod.mk.injEq]
    simp [drawingOf_inj, and_assoc]

theorem pieces_eq (p : ProcessGraph) (d : Diagram) :
    pieces p d =
      .opening "bpmn:definitions" (namespaces ++
          [.verbatim "id" "Definitions_1",
            .verbatim "targetNamespace" "http://bpmn.io/schema/bpmn"]) ::
        .opening "bpmn:process"
          (.escaped "id" p.id :: nameAttribute p.name ++ [.verbatim "isExecutable" "false"]) ::
        (p.nodes.map nodePiece ++ (p.flows.map flowPiece ++
          (.closing "bpmn:process" ::
            .opening "bpmndi:BPMNDiagram" [.verbatim "id" "BPMNDiagram_1"] ::
            .opening "bpmndi:BPMNPlane"
              [.verbatim "id" "BPMNPlane_1", .escaped "bpmnElement" d.processId] ::
            (d.nodes.flatMap shapePieces ++ (d.edges.flatMap edgePieces ++
              [.closing "bpmndi:BPMNPlane", .closing "bpmndi:BPMNDiagram",
                .closing "bpmn:definitions"]))))) := by
  simp [pieces, processPieces, diagramPieces]

theorem not_beginsWith_flows (flows : List Flow) (rest : List Piece) :
    ¬ BeginsWith nodeTags (flows.map flowPiece ++ .closing "bpmn:process" :: rest) := by
  cases flows with
  | nil =>
    rw [List.map_nil, List.nil_append, beginsWith_cons]
    show "bpmn:process" ∉ nodeTags
    decide
  | cons f flows =>
    rw [List.map_cons, List.cons_append, beginsWith_cons]
    show "bpmn:sequenceFlow" ∉ nodeTags
    decide

theorem not_beginsWith_edges (edges : List EdgeRoute) (rest : List Piece) :
    ¬ BeginsWith ["bpmndi:BPMNShape"]
      (edges.flatMap edgePieces ++ .closing "bpmndi:BPMNPlane" :: rest) := by
  cases edges with
  | nil =>
    rw [List.flatMap_nil, List.nil_append, beginsWith_cons]
    show "bpmndi:BPMNPlane" ∉ ["bpmndi:BPMNShape"]
    decide
  | cons e edges =>
    rw [List.flatMap_cons, List.append_assoc, edgePieces_append, beginsWith_cons]
    show "bpmndi:BPMNEdge" ∉ ["bpmndi:BPMNShape"]
    decide

/-- The tags of two documents are the same when and only when the documents
show the same process and draw it alike. -/
theorem pieces_eq_iff {p q : ProcessGraph} {d e : Diagram} :
    pieces p d = pieces q e ↔
      p.shown = q.shown ∧ d.processId = e.processId ∧
        d.nodes.map NodePlace.drawn = e.nodes.map NodePlace.drawn ∧
        d.edges.map EdgeRoute.drawn = e.edges.map EdgeRoute.drawn := by
  have hflows : ∀ rest, ¬ BeginsWith ["bpmn:sequenceFlow"] (.closing "bpmn:process" :: rest) := by
    intro rest
    rw [beginsWith_cons]
    decide
  have hplane : ∀ rest, ¬ BeginsWith ["bpmndi:BPMNEdge"] (.closing "bpmndi:BPMNPlane" :: rest) := by
    intro rest
    rw [beginsWith_cons]
    decide
  have hopening : Piece.opening "bpmn:process" (.escaped "id" p.id ::
        nameAttribute p.name ++ [.verbatim "isExecutable" "false"]) =
      .opening "bpmn:process" (.escaped "id" q.id ::
        nameAttribute q.name ++ [.verbatim "isExecutable" "false"]) ↔
      p.id = q.id ∧ shownName p.name = shownName q.name := by
    simp [Attribute.escaped_inj, nameAttribute_inj]
  have hcontainer : Piece.opening "bpmndi:BPMNPlane"
        [.verbatim "id" "BPMNPlane_1", .escaped "bpmnElement" d.processId] =
      .opening "bpmndi:BPMNPlane"
        [.verbatim "id" "BPMNPlane_1", .escaped "bpmnElement" e.processId] ↔
      d.processId = e.processId := by
    simp [Attribute.escaped_inj]
  rw [pieces_eq, pieces_eq, List.cons.injEq, List.cons.injEq, hopening,
    map_tag_append_eq_iff tagName_nodePiece nodePiece_inj (not_beginsWith_flows _ _)
      (not_beginsWith_flows _ _),
    map_tag_append_eq_iff tagName_flowPiece flowPiece_inj (hflows _) (hflows _),
    List.cons.injEq, List.cons.injEq, List.cons.injEq, hcontainer,
    selfDelimiting_shape.flatMap_append_eq_iff_of_total (not_beginsWith_edges _ _)
      (not_beginsWith_edges _ _),
    selfDelimiting_edge.flatMap_append_eq_iff_of_total (hplane _) (hplane _),
    ProcessGraph.shown_eq_iff]
  simp [and_assoc]

theorem plain_nameAttribute (name : Option String) : ∀ a ∈ nameAttribute name, a.Plain := by
  rw [nameAttribute_eq]
  intro a ha
  obtain ⟨name, -, rfl⟩ := List.mem_map.mp ha
  rw [Attribute.plain_escaped_iff]
  decide

theorem plain_nodePiece (n : Node) : (nodePiece n).Plain := by
  rw [nodePiece, Piece.plain_single_iff, List.forall_mem_cons, Attribute.plain_escaped_iff]
  refine ⟨?_, by decide, plain_nameAttribute n.label⟩
  cases n.kind <;> decide

theorem plain_flowPiece (f : Flow) : (flowPiece f).Plain := by
  simp +decide [flowPiece]

theorem plain_drawingOf (id : String) : ∀ a ∈ drawingOf id, a.Plain := by
  simp +decide [drawingOf]

theorem plain_waypointPiece (point : Point) : (waypointPiece point).Plain := by
  simp +decide [waypointPiece]

theorem plain_shapePieces (n : NodePlace) : ∀ x ∈ shapePieces n, x.Plain := by
  simp only [shapePieces, List.forall_mem_cons]
  have hbounds : (Piece.single "dc:Bounds" [.integer "x" n.bounds.x, .integer "y" n.bounds.y,
      .integer "width" n.bounds.width, .integer "height" n.bounds.height]).Plain := by
    simp +decide
  exact ⟨⟨by decide, plain_drawingOf n.id⟩, hbounds, by simp +decide, by simp⟩

theorem plain_edgePieces (e : EdgeRoute) : ∀ x ∈ edgePieces e, x.Plain := by
  simp only [edgePieces, List.forall_mem_append, List.forall_mem_map, List.forall_mem_singleton]
  exact ⟨⟨⟨by decide, plain_drawingOf e.id⟩, fun point _ => plain_waypointPiece point⟩,
    by simp +decide⟩

theorem plain_processPieces (p : ProcessGraph) : ∀ x ∈ processPieces p, x.Plain := by
  have hopening : (Piece.opening "bpmn:process" (.escaped "id" p.id :: nameAttribute p.name ++
      [.verbatim "isExecutable" "false"])).Plain := by
    refine ⟨by decide, ?_⟩
    simp only [List.forall_mem_append, List.forall_mem_cons, Attribute.plain_escaped_iff]
    exact ⟨⟨by decide, plain_nameAttribute p.name⟩, by simp +decide, by simp⟩
  simp only [processPieces, List.forall_mem_append, List.forall_mem_map, List.forall_mem_singleton]
  exact ⟨⟨⟨hopening, fun n _ => plain_nodePiece n⟩, fun f _ => plain_flowPiece f⟩,
    by simp +decide⟩

theorem plain_diagramPieces (d : Diagram) : ∀ x ∈ diagramPieces d, x.Plain := by
  have hopening : ∀ x ∈ [Piece.opening "bpmndi:BPMNDiagram" [.verbatim "id" "BPMNDiagram_1"],
      .opening "bpmndi:BPMNPlane"
        [.verbatim "id" "BPMNPlane_1", .escaped "bpmnElement" d.processId]], x.Plain := by
    simp +decide
  simp only [diagramPieces, List.forall_mem_append, List.forall_mem_flatMap]
  exact ⟨⟨⟨hopening, fun n _ => plain_shapePieces n⟩, fun e _ => plain_edgePieces e⟩,
    by simp +decide⟩

theorem plain_pieces (p : ProcessGraph) (d : Diagram) : ∀ x ∈ pieces p d, x.Plain := by
  have hopening : (Piece.opening "bpmn:definitions" (namespaces ++
      [.verbatim "id" "Definitions_1",
        .verbatim "targetNamespace" "http://bpmn.io/schema/bpmn"])).Plain := by
    simp +decide [namespaces]
  simp only [pieces, List.forall_mem_append, List.forall_mem_singleton]
  exact ⟨⟨⟨hopening, plain_processPieces p⟩, plain_diagramPieces d⟩, by simp +decide⟩

/-- Two documents are the same text exactly when they show the same process,
empty names aside, and draw each of its nodes and flows alike. -/
theorem document_eq_iff (p q : ProcessGraph) (d e : Diagram) :
    document p d = document q e ↔
      p.shown = q.shown ∧ d.processId = e.processId ∧
        d.nodes.map NodePlace.drawn = e.nodes.map NodePlace.drawn ∧
        d.edges.map EdgeRoute.drawn = e.edges.map EdgeRoute.drawn := by
  rw [document, document, String.ofList_inj, List.append_cancel_left_eq,
    writePieces_eq_iff (plain_pieces p d) (plain_pieces q e), pieces_eq_iff]

end Bpmn

end ProcessChart
