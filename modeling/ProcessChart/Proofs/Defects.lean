import ProcessChart.ProcessGraph.Defect
import Mathlib.Data.List.Nodup

/-!
What an empty list of defects says about a process. Each kind of defect is
absent exactly when a plain condition on nodes, flows and ids holds. The four
checks on ids together say that the written document uses no id twice.
-/

namespace ProcessChart

/-- With ids already seen and some of them already reported, an id is reported
when it was seen before or occurs twice in what is left. -/
theorem mem_repeatedFrom {x : String} {seen reported ids : List String}
    (hsub : ∀ y ∈ reported, y ∈ seen) :
    x ∈ repeatedFrom seen reported ids ↔
      x ∉ reported ∧ (x ∈ seen ∧ x ∈ ids ∨ 2 ≤ ids.count x) := by
  induction ids generalizing seen reported with
  | nil => simp [repeatedFrom]
  | cons id rest ih =>
    have hcount : 0 < rest.count x ↔ x ∈ rest := List.count_pos_iff
    by_cases hseen : id ∈ seen
    · by_cases hrep : id ∈ reported
      · rw [repeatedFrom, if_pos hseen, if_pos hrep, ih hsub]
        by_cases hx : x = id
        · simp [hx, hrep]
        · simp [hx, Ne.symm hx]
      · have hsub' : ∀ y ∈ id :: reported, y ∈ seen := by
          intro y hy
          rcases List.mem_cons.mp hy with rfl | hy
          · exact hseen
          · exact hsub y hy
        rw [repeatedFrom, if_pos hseen, if_neg hrep, List.mem_cons, ih hsub']
        by_cases hx : x = id
        · simp [hx, hrep, hseen]
        · simp [hx, Ne.symm hx]
    · have hsub' : ∀ y ∈ reported, y ∈ id :: seen :=
        fun y hy => List.mem_cons_of_mem id (hsub y hy)
      rw [repeatedFrom, if_neg hseen, ih hsub']
      by_cases hx : x = id
      · have hrep : id ∉ reported := fun h => hseen (hsub id h)
        subst hx
        simp only [List.mem_cons, true_or, true_and, hseen, false_and, false_or,
          List.count_cons_self]
        refine and_congr_right fun _ => ?_
        rw [← hcount]
        omega
      · simp [hx, Ne.symm hx]

theorem mem_repeated {x : String} {ids : List String} : x ∈ repeated ids ↔ 2 ≤ ids.count x := by
  rw [repeated, mem_repeatedFrom (by simp)]
  simp

theorem repeated_eq_nil_iff {ids : List String} : repeated ids = [] ↔ ids.Nodup := by
  rw [List.eq_nil_iff_forall_not_mem, List.nodup_iff_count_le_one]
  refine forall_congr' fun x => ?_
  rw [mem_repeated]
  omega

theorem eraseDups_eq_nil_iff {ids : List String} : ids.eraseDups = [] ↔ ids = [] := by
  simp only [List.eq_nil_iff_forall_not_mem, List.mem_eraseDups]

theorem diagramId_injective : Function.Injective diagramId := by
  intro x y h
  exact (String.append_left_inj "_di").mp h

/-- Reserved ids end in a digit, diagram ids in a letter. -/
theorem diagramId_not_reserved (x : String) : diagramId x ∉ reservedIds := by
  intro h
  have hlast : (diagramId x).toList.getLast? = some 'i' := by
    simp [diagramId, String.toList_append]
  have hdigit : ∀ y ∈ reservedIds, y.toList.getLast? ≠ some 'i' := by decide
  exact hdigit _ h hlast

namespace ProcessGraph

/-- The ids that the document of a process carries, in the order of the
document: containers, process, nodes and flows, then shapes and edges. -/
def documentIds (p : ProcessGraph) : List String :=
  ["Definitions_1", p.id] ++ p.structuralIds ++ ["BPMNDiagram_1", "BPMNPlane_1"] ++
    p.structuralIds.map diagramId

/-- What a process must fulfil to be drawn. -/
structure Admissible (p : ProcessGraph) : Prop where
  start_exists : ∃ n ∈ p.nodes, n.kind = .startEvent
  end_exists : ∃ n ∈ p.nodes, n.kind = .endEvent
  gateways_passable : ∀ n ∈ p.nodes, n.kind = .exclusiveGateway →
    (∃ f ∈ p.flows, f.target = n.id) ∧ ∃ f ∈ p.flows, f.source = n.id
  ends_exist : ∀ f ∈ p.flows,
    (∃ n ∈ p.nodes, n.id = f.source) ∧ ∃ n ∈ p.nodes, n.id = f.target
  ids_distinct : p.documentIds.Nodup

theorem nodesOfKind_eq_nil_iff {p : ProcessGraph} {k : NodeKind} :
    p.nodesOfKind k = [] ↔ ¬ ∃ n ∈ p.nodes, n.kind = k := by
  simp [nodesOfKind, List.filter_eq_nil_iff]

theorem isOpenGateway_eq_false_iff {p : ProcessGraph} {n : Node} :
    p.isOpenGateway n = false ↔
      (∃ f ∈ p.flows, f.target = n.id) ∧ ∃ f ∈ p.flows, f.source = n.id := by
  simp [isOpenGateway, flowsInto, flowsFrom]

theorem mem_nodeIds {p : ProcessGraph} {id : String} :
    id ∈ p.nodeIds ↔ ∃ n ∈ p.nodes, n.id = id := by
  simp [nodeIds]

theorem isDangling_eq_false_iff {p : ProcessGraph} {f : Flow} :
    p.isDangling f = false ↔ f.source ∈ p.nodeIds ∧ f.target ∈ p.nodeIds := by
  simp [isDangling, hasNode_iff]

theorem isTaken_iff {p : ProcessGraph} {id : String} :
    p.isTaken id = true ↔ id ∈ reservedIds ∨ id ∈ p.structuralIds.map diagramId := by
  simp [isTaken]

theorem documentCollisions_eq_nil_iff {p : ProcessGraph} :
    p.documentCollisions = [] ↔
      (p.isTaken p.id = false ∧ p.id ∉ p.structuralIds) ∧
        ∀ id ∈ p.structuralIds, p.isTaken id = false := by
  rw [documentCollisions, eraseDups_eq_nil_iff, List.append_eq_nil_iff, List.filter_eq_nil_iff]
  simp

theorem isTaken_eq_false_iff {p : ProcessGraph} {id : String} :
    p.isTaken id = false ↔ id ∉ reservedIds ++ p.structuralIds.map diagramId := by
  rw [← Bool.not_eq_true, isTaken_iff, List.mem_append]

theorem nodup_structuralIds_iff {p : ProcessGraph} :
    p.structuralIds.Nodup ↔
      p.nodeIds.Nodup ∧ p.flowIds.Nodup ∧ ∀ id ∈ p.flowIds, id ∉ p.nodeIds := by
  rw [structuralIds, List.nodup_append']
  refine and_congr_right fun _ => and_congr_right fun _ => ?_
  constructor
  · intro h id hflow hnode
    exact h hnode hflow
  · intro h id hnode hflow
    exact h id hflow hnode

/-- Containers, shapes and edges never clash with one another. -/
theorem nodup_drawnIds_iff {p : ProcessGraph} :
    (reservedIds ++ p.structuralIds.map diagramId).Nodup ↔ p.structuralIds.Nodup := by
  have hreserved : reservedIds.Nodup := by decide
  have hdisjoint : List.Disjoint reservedIds (p.structuralIds.map diagramId) := by
    intro x hx hmap
    obtain ⟨y, -, rfl⟩ := List.mem_map.mp hmap
    exact diagramId_not_reserved y hx
  rw [List.nodup_append', List.nodup_map_iff diagramId_injective]
  exact ⟨fun h => h.2.1, fun h => ⟨hreserved, h, hdisjoint⟩⟩

theorem perm_documentIds (p : ProcessGraph) :
    p.documentIds.Perm
      ((reservedIds ++ p.structuralIds.map diagramId) ++ (p.id :: p.structuralIds)) := by
  rw [List.perm_iff_count]
  intro x
  simp only [documentIds, reservedIds, List.count_append, List.count_cons, List.count_nil]
  omega

/-- The four checks on ids amount to one property of the written document. -/
theorem nodup_documentIds_iff {p : ProcessGraph} :
    p.documentIds.Nodup ↔
      p.nodeIds.Nodup ∧ p.flowIds.Nodup ∧ (∀ id ∈ p.flowIds, id ∉ p.nodeIds) ∧
        (p.isTaken p.id = false ∧ p.id ∉ p.structuralIds) ∧
          ∀ id ∈ p.structuralIds, p.isTaken id = false := by
  rw [(perm_documentIds p).nodup_iff, List.nodup_append', nodup_drawnIds_iff, List.nodup_cons,
    nodup_structuralIds_iff]
  simp only [isTaken_eq_false_iff]
  constructor
  · rintro ⟨⟨hnodes, hflows, hapart⟩, ⟨hown, -⟩, hdisjoint⟩
    exact ⟨hnodes, hflows, hapart, ⟨fun h => hdisjoint h List.mem_cons_self, hown⟩,
      fun id hid h => hdisjoint h (List.mem_cons_of_mem _ hid)⟩
  · rintro ⟨hnodes, hflows, hapart, ⟨hid, hown⟩, hall⟩
    refine ⟨⟨hnodes, hflows, hapart⟩, ⟨hown, hnodes, hflows, hapart⟩, ?_⟩
    intro x hx hmem
    rcases List.mem_cons.mp hmem with rfl | hmem
    · exact hid hx
    · exact hall x hmem hx

/-- The list of defects is empty exactly for an admissible process. -/
theorem isValid_iff {p : ProcessGraph} : p.isValid = true ↔ p.Admissible := by
  have hgateways : (p.nodesOfKind .exclusiveGateway).filter p.isOpenGateway = [] ↔
      ∀ n ∈ p.nodes, n.kind = .exclusiveGateway → p.isOpenGateway n = false := by
    simp only [List.filter_eq_nil_iff, nodesOfKind, List.mem_filter, decide_eq_true_eq,
      and_imp, Bool.not_eq_true]
  have hdangling : p.flows.filter p.isDangling = [] ↔ ∀ f ∈ p.flows, p.isDangling f = false := by
    simp [List.filter_eq_nil_iff]
  have hcollisions : p.flowIds.filter p.hasNode = [] ↔ ∀ id ∈ p.flowIds, id ∉ p.nodeIds := by
    simp [List.filter_eq_nil_iff, hasNode_iff]
  have hevent : ∀ k (d : Defect),
      (if (p.nodesOfKind k).isEmpty then [d] else []) = [] ↔ ∃ n ∈ p.nodes, n.kind = k := by
    intro k d
    rw [← not_iff_not, ← nodesOfKind_eq_nil_iff]
    by_cases h : p.nodesOfKind k = [] <;> simp [h]
  rw [isValid, List.isEmpty_iff, defects]
  simp only [List.append_eq_nil_iff, List.map_eq_nil_iff, hevent, hgateways, hdangling,
    repeated_eq_nil_iff, eraseDups_eq_nil_iff, hcollisions, documentCollisions_eq_nil_iff,
    isOpenGateway_eq_false_iff, isDangling_eq_false_iff, mem_nodeIds]
  constructor
  · rintro ⟨⟨⟨⟨⟨⟨⟨hs, he⟩, hg⟩, hd⟩, hn⟩, hf⟩, hc⟩, hid⟩
    refine ⟨hs, he, hg, hd, nodup_documentIds_iff.mpr ⟨hn, hf, ?_, hid⟩⟩
    simpa only [mem_nodeIds] using hc
  · rintro ⟨hs, he, hg, hd, hids⟩
    obtain ⟨hn, hf, hc, hid⟩ := nodup_documentIds_iff.mp hids
    refine ⟨⟨⟨⟨⟨⟨⟨hs, he⟩, hg⟩, hd⟩, hn⟩, hf⟩, ?_⟩, hid⟩
    simpa only [mem_nodeIds] using hc

end ProcessGraph

end ProcessChart
