import ProcessChart.Proofs.Defects
import ProcessChart.Proofs.Distinct
import Mathlib.Data.List.Count

/-!
How often each defect is listed. An open gateway and a dangling flow are told
as often as they occur, all other defects at most once, however many nodes and
flows take part in them. No defect hides another: whether one is told depends
on its own condition alone.
-/

namespace ProcessChart

namespace Defect

/-- The kinds of defects in the order in which they are listed. -/
def place : Defect → Nat
  | missingStart => 1
  | missingEnd => 2
  | openGateway _ => 3
  | danglingFlow _ => 4
  | duplicateNodeId _ => 5
  | duplicateFlowId _ => 6
  | flowIdCollision _ => 7
  | documentIdCollision _ => 8

/-- How often a process has the defect. -/
def occurrences (p : ProcessGraph) : Defect → Nat
  | missingStart => if ∃ n ∈ p.nodes, n.kind = .startEvent then 0 else 1
  | missingEnd => if ∃ n ∈ p.nodes, n.kind = .endEvent then 0 else 1
  | openGateway id =>
    if (∃ f ∈ p.flows, f.target = id) ∧ ∃ f ∈ p.flows, f.source = id then 0
    else p.nodes.countP fun n => n.kind = .exclusiveGateway ∧ n.id = id
  | danglingFlow id =>
    p.flows.countP fun f => f.id = id ∧ ¬(f.source ∈ p.nodeIds ∧ f.target ∈ p.nodeIds)
  | duplicateNodeId id => if 2 ≤ p.nodeIds.count id then 1 else 0
  | duplicateFlowId id => if 2 ≤ p.flowIds.count id then 1 else 0
  | flowIdCollision id => if id ∈ p.nodeIds ∧ id ∈ p.flowIds then 1 else 0
  | documentIdCollision id =>
    if (id = p.id ∨ id ∈ p.structuralIds) ∧
        (id ∈ reservedIds ∨ (∃ x ∈ p.structuralIds, id = x ++ "_di") ∨
          id = p.id ∧ id ∈ p.structuralIds) then 1 else 0

/-- The id of which a defect is told; the first two kinds have none. -/
def subject : Defect → String
  | missingStart => ""
  | missingEnd => ""
  | openGateway id => id
  | danglingFlow id => id
  | duplicateNodeId id => id
  | duplicateFlowId id => id
  | flowIdCollision id => id
  | documentIdCollision id => id

/-- The defect of the kind at this place, told of `id` unless the kind has no ids. -/
def ofPlace (id : String) : Nat → Defect
  | 1 => missingStart
  | 2 => missingEnd
  | 3 => openGateway id
  | 4 => danglingFlow id
  | 5 => duplicateNodeId id
  | 6 => duplicateFlowId id
  | 7 => flowIdCollision id
  | _ => documentIdCollision id

/-- The list holds the defects of one kind, each as often as the process has it, and no others. -/
structure Lists (p : ProcessGraph) (kind : Nat) (ds : List Defect) : Prop where
  place_eq : ∀ d ∈ ds, d.place = kind
  count_eq : ∀ d : Defect, d.place = kind → ds.count d = d.occurrences p

/-- The list holds the defects of the first kinds, in the order of the kinds. -/
structure ListsUpTo (p : ProcessGraph) (last : Nat) (ds : List Defect) : Prop where
  sorted : ds.Pairwise fun a b => a.place ≤ b.place
  place_le : ∀ d ∈ ds, d.place ≤ last
  count_eq : ∀ d : Defect, d.place ≤ last → ds.count d = d.occurrences p

variable {p : ProcessGraph} {kind last : Nat} {ds next : List Defect}

theorem place_pos (d : Defect) : 0 < d.place := by
  cases d <;> exact Nat.zero_lt_succ _

theorem place_le_eight (d : Defect) : d.place ≤ 8 := by
  cases d <;> simp [place]

theorem ofPlace_place (d : Defect) : ofPlace d.subject d.place = d := by
  cases d <;> rfl

/-- A defect is known by its kind and its id. -/
theorem eq_of_place_of_subject {d d' : Defect} (hplace : d.place = d'.place)
    (hsubject : d.subject = d'.subject) : d = d' := by
  rw [← ofPlace_place d, hplace, hsubject, ofPlace_place]

theorem subject_of_place_le_two {d : Defect} (h : d.place ≤ 2) : d.subject = "" := by
  cases d <;> simp_all [place, subject]

theorem ListsUpTo.nil : ListsUpTo p 0 [] :=
  ⟨.nil, by simp, fun d hd => absurd d.place_pos (Nat.not_lt_of_le hd)⟩

theorem ListsUpTo.append (h : ListsUpTo p last ds) (hnext : Lists p (last + 1) next) :
    ListsUpTo p (last + 1) (ds ++ next) := by
  have hsame : next.Pairwise fun a b => a.place ≤ b.place :=
    List.pairwise_of_forall_mem_list fun a ha b hb =>
      Nat.le_of_eq ((hnext.place_eq a ha).trans (hnext.place_eq b hb).symm)
  constructor
  · rw [List.pairwise_append]
    refine ⟨h.sorted, hsame, fun a ha b hb => ?_⟩
    have hle := h.place_le a ha
    rw [hnext.place_eq b hb]
    omega
  · intro d hd
    rcases List.mem_append.mp hd with hd | hd
    · exact Nat.le_succ_of_le (h.place_le d hd)
    · exact Nat.le_of_eq (hnext.place_eq d hd)
  · intro d hd
    rw [List.count_append]
    by_cases hplace : d.place = last + 1
    · have hfront : d ∉ ds := fun hmem => by
        have hle := h.place_le d hmem
        omega
      rw [List.count_eq_zero_of_not_mem hfront, Nat.zero_add, hnext.count_eq d hplace]
    · have hlater : d ∉ next := fun hmem => hplace (hnext.place_eq d hmem)
      rw [List.count_eq_zero_of_not_mem hlater, Nat.add_zero, h.count_eq d (by omega)]

/-- A defect that has no id is listed alone or not at all. -/
theorem Lists.ite {d : Defect} {c : Prop} [Decidable c] (hkind : d.place = kind)
    (htwo : kind ≤ 2) (hcount : d.occurrences p = if c then 1 else 0) :
    Lists p kind (if c then [d] else []) := by
  constructor
  · intro d' hd'
    split at hd'
    · rw [List.mem_singleton.mp hd', hkind]
    · exact absurd hd' List.not_mem_nil
  · intro d' hd'
    have hsubject : d'.subject = d.subject := by
      rw [subject_of_place_le_two (by omega), subject_of_place_le_two (by omega)]
    rw [eq_of_place_of_subject (hd'.trans hkind.symm) hsubject, hcount]
    split <;> simp

/-- Defects of a kind with ids are told apart by their ids. -/
theorem Lists.map {told : String → Defect} {ids : List String}
    (hkind : ∀ id, (told id).place = kind) (hsubject : ∀ id, (told id).subject = id)
    (hcount : ∀ id, ids.count id = (told id).occurrences p) : Lists p kind (ids.map told) := by
  constructor
  · exact List.forall_mem_map.mpr fun id _ => hkind id
  · intro d hd
    have htold : d = told d.subject :=
      eq_of_place_of_subject (hd.trans (hkind d.subject).symm) (hsubject d.subject).symm
    have hinj : Function.Injective told := Function.LeftInverse.injective hsubject
    rw [htold, List.count_map_of_injective ids told hinj, hcount]

end Defect

theorem nodup_repeatedFrom {seen reported ids : List String} (hsub : ∀ y ∈ reported, y ∈ seen) :
    (repeatedFrom seen reported ids).Nodup := by
  induction ids generalizing seen reported with
  | nil => exact List.nodup_nil
  | cons id rest ih =>
    by_cases hseen : id ∈ seen
    · by_cases hrep : id ∈ reported
      · rw [repeatedFrom, if_pos hseen, if_pos hrep]
        exact ih hsub
      · have hsub' : ∀ y ∈ id :: reported, y ∈ seen := by
          intro y hy
          rcases List.mem_cons.mp hy with rfl | hy
          · exact hseen
          · exact hsub y hy
        rw [repeatedFrom, if_pos hseen, if_neg hrep, List.nodup_cons]
        refine ⟨fun hmem => ?_, ih hsub'⟩
        exact ((mem_repeatedFrom hsub').mp hmem).1 List.mem_cons_self
    · rw [repeatedFrom, if_neg hseen]
      exact ih fun y hy => List.mem_cons_of_mem id (hsub y hy)

theorem count_repeated (x : String) (ids : List String) :
    (repeated ids).count x = if 2 ≤ ids.count x then 1 else 0 := by
  have hnodup : (repeated ids).Nodup := nodup_repeatedFrom (by simp)
  rw [hnodup.count]
  simp only [mem_repeated]

namespace ProcessGraph

variable {p : ProcessGraph}

theorem count_openGateways (id : String) :
    (((p.nodesOfKind .exclusiveGateway).filter p.isOpenGateway).map (·.id)).count id =
      (Defect.openGateway id).occurrences p := by
  rw [Defect.occurrences, List.count_eq_countP, List.countP_map, List.countP_filter, nodesOfKind,
    List.countP_filter]
  by_cases h : (∃ f ∈ p.flows, f.target = id) ∧ ∃ f ∈ p.flows, f.source = id
  · rw [if_pos h, List.countP_eq_zero]
    intro n _ hn
    simp only [Function.comp_apply, Bool.and_eq_true, beq_iff_eq] at hn
    obtain ⟨⟨rfl, hopen⟩, -⟩ := hn
    rw [isOpenGateway_eq_false_iff.mpr h] at hopen
    exact Bool.noConfusion hopen
  · rw [if_neg h]
    apply List.countP_congr
    intro n _
    have hopen : n.id = id → p.isOpenGateway n = true := by
      rintro rfl
      rw [← Bool.not_eq_false, isOpenGateway_eq_false_iff]
      exact h
    simp only [Function.comp_apply, Bool.and_eq_true, beq_iff_eq, decide_eq_true_eq]
    constructor
    · rintro ⟨⟨hid, -⟩, hkind⟩
      exact ⟨hkind, hid⟩
    · rintro ⟨hkind, hid⟩
      exact ⟨⟨hid, hopen hid⟩, hkind⟩

theorem count_danglingFlows (id : String) :
    ((p.flows.filter p.isDangling).map (·.id)).count id =
      (Defect.danglingFlow id).occurrences p := by
  rw [Defect.occurrences, List.count_eq_countP, List.countP_map, List.countP_filter]
  apply List.countP_congr
  intro f _
  simp [← isDangling_eq_false_iff]

theorem count_flowIdCollisions (id : String) :
    (p.flowIds.filter p.hasNode).eraseDups.count id =
      (Defect.flowIdCollision id).occurrences p := by
  rw [Defect.occurrences, count_eraseDups]
  simp only [List.mem_filter, hasNode_iff, and_comm]

theorem mem_documentCollisions {id : String} :
    id ∈ p.documentCollisions ↔
      (id = p.id ∨ id ∈ p.structuralIds) ∧
        (id ∈ reservedIds ∨ (∃ x ∈ p.structuralIds, id = x ++ "_di") ∨
          id = p.id ∧ id ∈ p.structuralIds) := by
  have htaken : p.isTaken id = true ↔
      id ∈ reservedIds ∨ ∃ x ∈ p.structuralIds, id = x ++ "_di" := by
    simp only [isTaken_iff, List.mem_map, diagramId, eq_comm (a := id)]
  have hown : id ∈ (if p.isTaken p.id || p.structuralIds.contains p.id then [p.id] else []) ↔
      id = p.id ∧ (p.isTaken id = true ∨ id ∈ p.structuralIds) := by
    by_cases h : id = p.id
    · subst h
      by_cases hclash : p.isTaken p.id || p.structuralIds.contains p.id <;> simp_all
    · by_cases hclash : p.isTaken p.id || p.structuralIds.contains p.id <;> simp_all
  rw [documentCollisions, List.mem_eraseDups, List.mem_append, List.mem_filter, hown, ← or_assoc,
    ← htaken]
  tauto

theorem count_documentCollisions (id : String) :
    p.documentCollisions.count id = (Defect.documentIdCollision id).occurrences p := by
  have hnodup : p.documentCollisions.Nodup := nodup_eraseDups _
  rw [Defect.occurrences, hnodup.count]
  simp only [mem_documentCollisions]

theorem missing_occurrences {kind : NodeKind} :
    (if ∃ n ∈ p.nodes, n.kind = kind then 0 else 1) =
      if (p.nodesOfKind kind).isEmpty then 1 else 0 := by
  have hempty : (p.nodesOfKind kind).isEmpty = true ↔ ¬∃ n ∈ p.nodes, n.kind = kind := by
    rw [List.isEmpty_iff, nodesOfKind_eq_nil_iff]
  by_cases h : ∃ n ∈ p.nodes, n.kind = kind
  · rw [if_pos h, if_neg (fun he => hempty.mp he h)]
  · rw [if_neg h, if_pos (hempty.mpr h)]

theorem listsUpTo_defects : Defect.ListsUpTo p 8 p.defects := by
  have hstart : Defect.Lists p 1
      (if (p.nodesOfKind .startEvent).isEmpty then [.missingStart] else []) :=
    .ite rfl (by decide) missing_occurrences
  have hend : Defect.Lists p 2
      (if (p.nodesOfKind .endEvent).isEmpty then [.missingEnd] else []) :=
    .ite rfl (by decide) missing_occurrences
  have hgateways : Defect.Lists p 3
      (((p.nodesOfKind .exclusiveGateway).filter p.isOpenGateway).map (.openGateway ·.id)) := by
    have hids : Defect.Lists p 3
        ((((p.nodesOfKind .exclusiveGateway).filter p.isOpenGateway).map (·.id)).map
          .openGateway) :=
      .map (fun _ => rfl) (fun _ => rfl) p.count_openGateways
    rwa [List.map_map] at hids
  have hdangling : Defect.Lists p 4
      ((p.flows.filter p.isDangling).map (.danglingFlow ·.id)) := by
    have hids : Defect.Lists p 4 (((p.flows.filter p.isDangling).map (·.id)).map .danglingFlow) :=
      .map (fun _ => rfl) (fun _ => rfl) p.count_danglingFlows
    rwa [List.map_map] at hids
  have hnodes : Defect.Lists p 5 ((repeated p.nodeIds).map .duplicateNodeId) :=
    .map (fun _ => rfl) (fun _ => rfl) fun id => count_repeated id _
  have hflows : Defect.Lists p 6 ((repeated p.flowIds).map .duplicateFlowId) :=
    .map (fun _ => rfl) (fun _ => rfl) fun id => count_repeated id _
  have happart : Defect.Lists p 7
      ((p.flowIds.filter p.hasNode).eraseDups.map .flowIdCollision) :=
    .map (fun _ => rfl) (fun _ => rfl) count_flowIdCollisions
  have hdocument : Defect.Lists p 8 (p.documentCollisions.map .documentIdCollision) :=
    .map (fun _ => rfl) (fun _ => rfl) count_documentCollisions
  exact (((((((Defect.ListsUpTo.nil.append hstart).append hend).append hgateways).append
    hdangling).append hnodes).append hflows).append happart).append hdocument

/-- A defect is listed as often as the process has it, and the kinds of defects
come in their order. -/
theorem count_defects (p : ProcessGraph) :
    (∀ d, p.defects.count d = d.occurrences p) ∧
      p.defects.Pairwise fun a b => a.place ≤ b.place :=
  ⟨fun d => listsUpTo_defects.count_eq d d.place_le_eight, listsUpTo_defects.sorted⟩

-- One id three times over, as the id of the process and as the drawing of another node.
example :
    defects ⟨"a_di", none, [⟨"a_di", .startEvent, none⟩, ⟨"a_di", .exclusiveGateway, none⟩,
      ⟨"a_di", .exclusiveGateway, none⟩, ⟨"a", .endEvent, none⟩], [⟨"a_di", "a", "b"⟩]⟩ =
      [.openGateway "a_di", .openGateway "a_di", .danglingFlow "a_di", .duplicateNodeId "a_di",
        .flowIdCollision "a_di", .documentIdCollision "a_di"] := by decide

end ProcessGraph

end ProcessChart
