import ProcessChart.Compiled
import ProcessChart.Proofs.Placement

/-!
Which processes are compiled. A process compiles exactly when it is admissible,
every other process is refused with its defects, and the layout never fails.
The ids that the written document carries are read off its tags, so that their
distinctness is a statement about the document and not about the checks.
-/

namespace ProcessChart

namespace Markup

/-- The values of the id attributes of a document, as they are written. -/
def writtenIds (pieces : List Piece) : List String :=
  ((pieces.flatMap Piece.attributes).filter (·.name = "id")).map fun a => String.ofList a.written

theorem writtenIds_append (a b : List Piece) :
    writtenIds (a ++ b) = writtenIds a ++ writtenIds b := by
  simp [writtenIds]

/-- Where every item of a list carries one id, the ids are written in the order
of the list. -/
theorem writtenIds_flatMap {α : Type} {f : α → List Piece} {g : α → String} (xs : List α)
    (h : ∀ x, writtenIds (f x) = [escape (g x)]) :
    writtenIds (xs.flatMap f) = (xs.map g).map escape := by
  induction xs with
  | nil => rfl
  | cons x rest ih =>
    rw [List.flatMap_cons, writtenIds_append, h x, ih]
    rfl

theorem writtenIds_map {α : Type} {f : α → Piece} {g : α → String} (xs : List α)
    (h : ∀ x, writtenIds [f x] = [escape (g x)]) :
    writtenIds (xs.map f) = (xs.map g).map escape := by
  rw [List.map_eq_flatMap]
  exact writtenIds_flatMap xs h

theorem writtenIds_single {name : String} {value : String} {others : List Attribute}
    (h : others.filter (·.name = "id") = []) :
    writtenIds [.single name (.escaped "id" value :: others)] = [escape value] := by
  simp [writtenIds, Piece.attributes, Attribute.escaped, h, escape]

end Markup

namespace Bpmn

open Markup

theorem ids_nameAttribute (name : Option String) :
    (nameAttribute name).filter (·.name = "id") = [] := by
  cases name with
  | none => rfl
  | some name => by_cases h : name = "" <;> simp [nameAttribute, h, Attribute.escaped]

theorem writtenIds_processPieces (p : ProcessGraph) :
    writtenIds (processPieces p) = (p.id :: p.structuralIds).map escape := by
  have hopening : writtenIds [.opening "bpmn:process"
      (.escaped "id" p.id :: nameAttribute p.name ++ [.verbatim "isExecutable" "false"])] =
      [escape p.id] := by
    simp [writtenIds, Piece.attributes, ids_nameAttribute, Attribute.escaped,
      Attribute.verbatim, escape]
  have hnodes : writtenIds (p.nodes.map nodePiece) = p.nodeIds.map escape :=
    writtenIds_map p.nodes fun n => writtenIds_single (ids_nameAttribute n.label)
  have hflows : writtenIds (p.flows.map flowPiece) = p.flowIds.map escape :=
    writtenIds_map p.flows fun f => writtenIds_single (by simp [Attribute.escaped])
  have hclosing : writtenIds [.closing "bpmn:process"] = [] := rfl
  rw [processPieces, writtenIds_append, writtenIds_append, writtenIds_append, hopening, hnodes,
    hflows, hclosing]
  simp [ProcessGraph.structuralIds]

theorem writtenIds_shapePieces (n : NodePlace) :
    writtenIds (shapePieces n) = [escape (diagramId n.id)] := by
  simp [writtenIds, shapePieces, Piece.attributes, drawingOf, Attribute.escaped,
    Attribute.integer, escape]

theorem writtenIds_edgePieces (e : EdgeRoute) :
    writtenIds (edgePieces e) = [escape (diagramId e.id)] := by
  have hpoints : writtenIds (e.points.map waypointPiece) = [] := by
    induction e.points with
    | nil => rfl
    | cons point rest ih =>
      rw [List.map_cons, ← List.singleton_append, writtenIds_append, ih]
      rfl
  rw [edgePieces, writtenIds_append, writtenIds_append, hpoints]
  simp [writtenIds, Piece.attributes, drawingOf, Attribute.escaped, escape]

/-- The tags of the document carry the ids of the process, once for every node
and flow and once more for its shape or edge. -/
theorem writtenIds_pieces {p : ProcessGraph} {d : Diagram}
    (hnodes : d.nodes.map (·.id) = p.nodeIds) (hedges : d.edges.map (·.id) = p.flowIds) :
    writtenIds (pieces p d) = p.documentIds.map escape := by
  have hshapes : writtenIds (d.nodes.flatMap shapePieces) =
      (p.nodeIds.map diagramId).map escape := by
    rw [writtenIds_flatMap d.nodes writtenIds_shapePieces, ← hnodes]
    simp only [List.map_map, Function.comp_def]
  have hroutes : writtenIds (d.edges.flatMap edgePieces) =
      (p.flowIds.map diagramId).map escape := by
    rw [writtenIds_flatMap d.edges writtenIds_edgePieces, ← hedges]
    simp only [List.map_map, Function.comp_def]
  have hcontainers : ∀ id ∈ reservedIds, escape id = id := by decide
  have hdefinitions : writtenIds [.opening "bpmn:definitions"
      (namespaces ++ [.verbatim "id" "Definitions_1",
        .verbatim "targetNamespace" "http://bpmn.io/schema/bpmn"])] =
      [escape "Definitions_1"] := by
    rw [hcontainers "Definitions_1" (by decide)]
    simp [writtenIds, Piece.attributes, namespaces, Attribute.verbatim]
  have hplane : writtenIds
      [.opening "bpmndi:BPMNDiagram" [.verbatim "id" "BPMNDiagram_1"],
        .opening "bpmndi:BPMNPlane"
          [.verbatim "id" "BPMNPlane_1", .escaped "bpmnElement" d.processId]] =
      [escape "BPMNDiagram_1", escape "BPMNPlane_1"] := by
    rw [hcontainers "BPMNDiagram_1" (by decide), hcontainers "BPMNPlane_1" (by decide)]
    simp [writtenIds, Piece.attributes, Attribute.verbatim, Attribute.escaped]
  have hclosing : writtenIds
      [.closing "bpmndi:BPMNPlane", .closing "bpmndi:BPMNDiagram"] = [] := rfl
  have hend : writtenIds [.closing "bpmn:definitions"] = [] := rfl
  rw [pieces, diagramPieces]
  simp only [writtenIds_append, writtenIds_processPieces, hshapes, hroutes, hdefinitions, hplane,
    hclosing, hend]
  simp [ProcessGraph.documentIds, ProcessGraph.structuralIds]

end Bpmn

namespace ProcessGraph

open Markup

variable {p : ProcessGraph} {s : LayoutSettings}

theorem compile_of_admissible (h : p.Admissible) :
    ∃ d, p.layOut s = .ok d ∧ p.compile s = .ok ⟨d, Bpmn.document p d⟩ := by
  obtain ⟨d, hd⟩ : ∃ d, p.layOut s = .ok d := by
    apply exists_layOut
    intro f hf
    simpa only [mem_nodeIds] using h.ends_exist f hf
  exact ⟨d, hd, by rw [compile, if_pos (isValid_iff.mpr h), hd]⟩

theorem compile_of_not_admissible (h : ¬ p.Admissible) :
    p.compile s = .error (.invalid p.defects) := by
  rw [compile, if_neg (mt isValid_iff.mp h)]

/-- Compiling succeeds exactly on admissible processes and otherwise reports
the defects. A compiled document carries the ids of its process and no others. -/
theorem compile_ok_iff_admissible (p : ProcessGraph) (s : LayoutSettings) :
    ((∃ c, p.compile s = .ok c) ↔ p.Admissible) ∧
      ((∃ defects, p.compile s = .error (.invalid defects)) ↔ ¬ p.Admissible) ∧
      (¬ ∃ missing, p.compile s = .error (.layout missing)) ∧
      ∀ c, p.compile s = .ok c →
        c.document = Bpmn.document p c.diagram ∧
          writtenIds (Bpmn.pieces p c.diagram) = p.documentIds.map escape := by
  by_cases h : p.Admissible
  · obtain ⟨d, hd, hc⟩ := compile_of_admissible (s := s) h
    have hids := ids_of_layOut hd
    simp only [hc, h, Except.ok.injEq, exists_eq', reduceCtorEq, exists_false, not_true_eq_false,
      not_false_eq_true, true_and]
    rintro c rfl
    exact ⟨rfl, Bpmn.writtenIds_pieces hids.1 hids.2⟩
  · have hc := compile_of_not_admissible (s := s) h
    simp [hc, h]

/-- A start event, a task and an end event in a row. -/
def singleTask : ProcessGraph where
  id := "P"
  name := none
  nodes := [⟨"s", .startEvent, none⟩, ⟨"t", .task, some "Check"⟩, ⟨"e", .endEvent, none⟩]
  flows := [⟨"f1", "s", "t"⟩, ⟨"f2", "t", "e"⟩]

theorem compile_singleTask :
    ∃ c, singleTask.compile .standard = .ok c ∧
      writtenIds (Bpmn.pieces singleTask c.diagram) =
        ["Definitions_1", "P", "s", "t", "e", "f1", "f2", "BPMNDiagram_1", "BPMNPlane_1",
          "s_di", "t_di", "e_di", "f1_di", "f2_di"] := by
  have hadmissible : singleTask.Admissible := isValid_iff.mp (by decide)
  obtain ⟨hok, -, -, hids⟩ := compile_ok_iff_admissible singleTask .standard
  obtain ⟨c, hc⟩ := hok.mpr hadmissible
  refine ⟨c, hc, ?_⟩
  rw [(hids c hc).2]
  decide

end ProcessGraph

end ProcessChart
