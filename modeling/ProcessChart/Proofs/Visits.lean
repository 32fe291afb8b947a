import ProcessChart.Layout.Levels
import ProcessChart.Proofs.Distinct
import Mathlib.Data.List.Induction

/-!
The order in which nodes are visited. A node is visited early, before the
leftovers, once it is the start or all its predecessors have been visited; the
invariant of the visit says that no node is visited sooner than that and that
none is forgotten.
-/

namespace ProcessChart.ProcessGraph

variable {p : ProcessGraph} {start? : Option String}

/-- The id may be visited when `done` has been visited: it is the start, or it
has predecessors and all of them are done. -/
def Released (p : ProcessGraph) (start? : Option String) (done : List String) (id : String) :
    Prop :=
  some id = start? ∨ p.predecessors id ≠ [] ∧ ∀ u ∈ p.predecessors id, u ∈ done

theorem Released.mono {done done' : List String} {id : String}
    (h : p.Released start? done id) (hsub : ∀ x ∈ done, x ∈ done') :
    p.Released start? done' id := by
  rcases h with hstart | ⟨hentered, hall⟩
  · exact Or.inl hstart
  · exact Or.inr ⟨hentered, fun u hu => hsub u (hall u hu)⟩

/-- The ids that visiting can come to early: the start, if it is a node, and again
and again the nodes whose predecessors all are such ids. -/
inductive Releasable (p : ProcessGraph) (start? : Option String) : String → Prop
  | start {id : String} : id ∈ p.nodeIds → some id = start? → Releasable p start? id
  | next {id : String} : id ∈ p.nodeIds → p.predecessors id ≠ [] →
      (∀ u ∈ p.predecessors id, Releasable p start? u) → Releasable p start? id

/-- What holds between visits. -/
structure Visiting (p : ProcessGraph) (start? : Option String) (visited waiting : List String) :
    Prop where
  nodup : visited.Nodup
  visited_nodes : ∀ x ∈ visited, x ∈ p.nodeIds
  waiting_nodes : ∀ x ∈ waiting, x ∈ p.nodeIds
  in_order : ∀ before x after, visited = before ++ x :: after → p.Released start? before x
  ready : ∀ x ∈ waiting, p.Released start? visited x
  complete : ∀ x ∈ p.nodeIds, p.Released start? visited x → x ∈ visited ∨ x ∈ waiting

theorem mem_releasedBy {visited : List String} {id x : String} :
    x ∈ p.releasedBy visited id ↔
      id ∈ p.predecessors x ∧ x ∈ p.nodeIds ∧ ∀ u ∈ p.predecessors x, u ∈ visited := by
  have hsucc : x ∈ p.successors id ↔ id ∈ p.predecessors x := by
    rw [mem_successors, mem_predecessors]
    exact exists_congr fun f => and_congr_right fun _ => and_comm
  simp [releasedBy, List.mem_eraseDups, hasNode_iff, hsucc]

namespace Visiting

variable {visited waiting : List String} {id : String}

theorem initial : p.Visiting start? [] (start?.toList.filter p.hasNode) where
  nodup := List.nodup_nil
  visited_nodes := by simp
  waiting_nodes x hx := hasNode_iff.mp (List.mem_filter.mp hx).2
  in_order before x after h := by simp at h
  ready x hx := by
    have hmem := (List.mem_filter.mp hx).1
    exact Or.inl (Option.mem_toList.mp hmem).symm
  complete x hnode h := by
    right
    rcases h with hstart | ⟨hentered, hall⟩
    · exact List.mem_filter.mpr ⟨Option.mem_toList.mpr hstart.symm, hasNode_iff.mpr hnode⟩
    · obtain ⟨u, hu⟩ := List.exists_mem_of_ne_nil _ hentered
      simpa using hall u hu

/-- Passing over an id that has been visited before. -/
theorem skip (h : p.Visiting start? visited (id :: waiting)) (hid : id ∈ visited) :
    p.Visiting start? visited waiting where
  nodup := h.nodup
  visited_nodes := h.visited_nodes
  waiting_nodes x hx := h.waiting_nodes x (List.mem_cons_of_mem id hx)
  in_order := h.in_order
  ready x hx := h.ready x (List.mem_cons_of_mem id hx)
  complete x hnode hx := by
    rcases h.complete x hnode hx with hmem | hmem
    · exact Or.inl hmem
    · rcases List.mem_cons.mp hmem with rfl | hmem
      · exact Or.inl hid
      · exact Or.inr hmem

/-- Visiting a new id and queueing the nodes for which it was the last missing one. -/
theorem visit (h : p.Visiting start? visited (id :: waiting)) (hid : id ∉ visited) :
    p.Visiting start? (visited ++ [id])
      (waiting ++ p.releasedBy (visited ++ [id]) id) where
  nodup := by
    rw [List.nodup_append']
    exact ⟨h.nodup, List.nodup_singleton id, by simpa using hid⟩
  visited_nodes x hx := by
    rcases List.mem_append.mp hx with hx | hx
    · exact h.visited_nodes x hx
    · rw [List.mem_singleton.mp hx]
      exact h.waiting_nodes id List.mem_cons_self
  waiting_nodes x hx := by
    rcases List.mem_append.mp hx with hx | hx
    · exact h.waiting_nodes x (List.mem_cons_of_mem id hx)
    · exact (mem_releasedBy.mp hx).2.1
  in_order before x after heq := by
    rcases List.eq_nil_or_concat after with rfl | ⟨after, y, rfl⟩
    · obtain ⟨rfl, hx⟩ := List.append_inj' heq rfl
      obtain rfl : id = x := by simpa using hx
      exact h.ready id List.mem_cons_self
    · have heq' : visited ++ [id] = (before ++ x :: after) ++ [y] := by simpa using heq
      exact h.in_order before x after (List.append_inj' heq' rfl).1
  ready x hx := by
    rcases List.mem_append.mp hx with hx | hx
    · have hready := h.ready x (List.mem_cons_of_mem id hx)
      exact hready.mono fun y hy => List.mem_append_left _ hy
    · obtain ⟨hedge, -, hall⟩ := mem_releasedBy.mp hx
      exact Or.inr ⟨List.ne_nil_of_mem hedge, hall⟩
  complete x hnode hx := by
    by_cases hold : p.Released start? visited x
    · rcases h.complete x hnode hold with hmem | hmem
      · exact Or.inl (List.mem_append_left _ hmem)
      · rcases List.mem_cons.mp hmem with rfl | hmem
        · exact Or.inl (by simp)
        · exact Or.inr (List.mem_append_left _ hmem)
    -- Newly released, so the id just visited is among its predecessors.
    · rcases hx with hstart | ⟨hentered, hall⟩
      · exact absurd (Or.inl hstart) hold
      · have hedge : id ∈ p.predecessors x := by
          by_contra hnot
          refine hold (Or.inr ⟨hentered, fun u hu => ?_⟩)
          rcases List.mem_append.mp (hall u hu) with hmem | hmem
          · exact hmem
          · exact absurd (List.mem_singleton.mp hmem ▸ hu) hnot
        exact Or.inr (List.mem_append_right _ (mem_releasedBy.mpr ⟨hedge, hnode, hall⟩))

theorem release (h : p.Visiting start? visited waiting) :
    p.Visiting start? (p.release visited waiting) [] := by
  fun_induction p.release visited waiting with
  | case1 visited => exact h
  | case2 visited id rest hmem ih => exact ih (h.skip (by simpa using hmem))
  | case3 visited id rest hmem ih => exact ih (h.visit (by simpa using hmem))

end Visiting

theorem visiting_releasedFrom : p.Visiting start? (p.releasedFrom start?) [] :=
  Visiting.initial.release

/-- In a list without repetitions, what precedes an id can be told from any split at it. -/
theorem pair_sublist_iff_of_split {u v : String} {order before after : List String}
    (hnodup : order.Nodup) (hsplit : order = before ++ v :: after) :
    [u, v].Sublist order ↔ u ∈ before := by
  subst hsplit
  induction before with
  | nil =>
    have hafter : v ∉ after := (List.nodup_cons.mp hnodup).1
    refine iff_of_false ?_ (by simp)
    intro h
    rcases List.sublist_cons_iff.mp h with h | ⟨r, hr, h⟩
    · exact hafter (h.subset (by simp))
    · cases hr
      exact hafter (h.subset (by simp))
  | cons x rest ih =>
    obtain ⟨hx, hrest⟩ := List.nodup_cons.mp hnodup
    rw [List.mem_cons, ← ih hrest]
    constructor
    · intro h
      rcases List.sublist_cons_iff.mp h with h | ⟨r, hr, -⟩
      · exact Or.inr h
      · exact Or.inl (List.cons.inj hr).1
    · rintro (rfl | h)
      · exact (List.singleton_sublist.mpr (by simp)).cons_cons u
      · exact h.cons x

/-- A node visited early is the start or follows all its predecessors. -/
theorem start_or_follows_of_released {id : String} (hmem : id ∈ p.releasedFrom start?) :
    some id = start? ∨ p.predecessors id ≠ [] ∧
      ∀ u ∈ p.predecessors id, [u, id].Sublist (p.releasedFrom start?) := by
  obtain ⟨before, after, hsplit⟩ := List.append_of_mem hmem
  have hpair : ∀ u, [u, id].Sublist (p.releasedFrom start?) ↔ u ∈ before := fun u =>
    pair_sublist_iff_of_split visiting_releasedFrom.nodup hsplit
  rcases visiting_releasedFrom.in_order before id after hsplit with hstart | ⟨hentered, hall⟩
  · exact Or.inl hstart
  · exact Or.inr ⟨hentered, fun u hu => (hpair u).mpr (hall u hu)⟩

/-- The early visits miss no node that may be visited. -/
theorem mem_releasedFrom_of_released {id : String} (hnode : id ∈ p.nodeIds)
    (h : p.Released start? (p.releasedFrom start?) id) : id ∈ p.releasedFrom start? := by
  rcases visiting_releasedFrom.complete id hnode h with hmem | hmem
  · exact hmem
  · simp at hmem

/-- A property that passes from all items in front of an item to the item holds of a list. -/
theorem forall_mem_of_prefix {α : Type} {motive : α → Prop} {order : List α}
    (step : ∀ before x after, order = before ++ x :: after → (∀ u ∈ before, motive u) → motive x) :
    ∀ x ∈ order, motive x := by
  induction order using List.reverseRecOn with
  | nil => simp
  | append_singleton order y ih =>
    have hinit : ∀ u ∈ order, motive u := by
      refine ih fun before x after hsplit hbefore => step before x (after ++ [y]) ?_ hbefore
      rw [hsplit, List.append_assoc, List.cons_append]
    intro x hx
    rcases List.mem_append.mp hx with hx | hx
    · exact hinit x hx
    · rw [List.mem_singleton.mp hx]
      exact step order y [] rfl hinit

/-- The early visits go to the least set of nodes that contains the start and every
node all whose predecessors it contains. -/
theorem mem_releasedFrom_iff {id : String} :
    id ∈ p.releasedFrom start? ↔ p.Releasable start? id := by
  constructor
  · have hall : ∀ x ∈ p.releasedFrom start?, p.Releasable start? x := by
      refine forall_mem_of_prefix fun before x after hsplit hbefore => ?_
      have hmem : x ∈ p.releasedFrom start? := by simp [hsplit]
      have hnode : x ∈ p.nodeIds := visiting_releasedFrom.visited_nodes x hmem
      rcases visiting_releasedFrom.in_order before x after hsplit with hstart | ⟨hentered, hpred⟩
      · exact .start hnode hstart
      · exact .next hnode hentered fun u hu => hbefore u (hpred u hu)
    exact hall id
  · intro h
    induction h with
    | start hnode hstart => exact mem_releasedFrom_of_released hnode (Or.inl hstart)
    | next hnode hentered _ ih => exact mem_releasedFrom_of_released hnode (Or.inr ⟨hentered, ih⟩)

/-- The nodes visited at the end, in the order of their first declaration. -/
def leftovers (p : ProcessGraph) (start? : Option String) : List String :=
  (p.nodeIds.filter fun id => !(p.releasedFrom start?).contains id).eraseDups

theorem visitOrder_eq_append :
    p.visitOrder start? = p.releasedFrom start? ++ p.leftovers start? := rfl

theorem mem_leftovers {id : String} :
    id ∈ p.leftovers start? ↔ id ∈ p.nodeIds ∧ id ∉ p.releasedFrom start? := by
  simp [leftovers, List.mem_eraseDups]

theorem mem_visitOrder {id : String} : id ∈ p.visitOrder start? ↔ id ∈ p.nodeIds := by
  rw [visitOrder_eq_append, List.mem_append, mem_leftovers]
  by_cases h : id ∈ p.releasedFrom start?
  · exact iff_of_true (Or.inl h) (visiting_releasedFrom.visited_nodes id h)
  · simp [h]

theorem mem_nodeIds_of_before {u v : String} (h : [u, v].Sublist (p.visitOrder start?)) :
    u ∈ p.nodeIds :=
  mem_visitOrder.mp (h.subset (by simp))

theorem nodup_visitOrder : (p.visitOrder start?).Nodup := by
  rw [visitOrder_eq_append, List.nodup_append']
  refine ⟨visiting_releasedFrom.nodup, nodup_eraseDups _, fun x hreleased hleft => ?_⟩
  exact (mem_leftovers.mp hleft).2 hreleased

theorem exists_split_visitOrder (start? : Option String) {v : String} (hnode : v ∈ p.nodeIds) :
    ∃ before after, p.visitOrder start? = before ++ v :: after ∧
      ∀ u, [u, v].Sublist (p.visitOrder start?) ↔ u ∈ before := by
  obtain ⟨before, after, hsplit⟩ := List.append_of_mem (mem_visitOrder.mpr hnode)
  exact ⟨before, after, hsplit, fun u => pair_sublist_iff_of_split nodup_visitOrder hsplit⟩

/-- A predecessor is visited before a node when it is visited early, or both are
left over and it is declared first. -/
theorem before_iff_or {u v : String} (hnode : v ∈ p.nodeIds) (hv : some v ≠ start?)
    (hu : u ∈ p.predecessors v) :
    [u, v].Sublist (p.visitOrder start?) ↔
      u ∈ p.releasedFrom start? ∨ [u, v].Sublist (p.leftovers start?) := by
  by_cases hreleased : v ∈ p.releasedFrom start?
  · rcases start_or_follows_of_released hreleased with hs | ⟨-, hall⟩
    · exact absurd hs hv
    · have hpair := hall u hu
      have hmem : u ∈ p.releasedFrom start? := hpair.subset (by simp)
      exact iff_of_true (hpair.trans (List.sublist_append_left _ _)) (Or.inl hmem)
  · obtain ⟨before, after, hsplit⟩ := List.append_of_mem (mem_leftovers.mpr ⟨hnode, hreleased⟩)
    have hleft : (p.leftovers start?).Nodup := nodup_eraseDups _
    have horder : p.visitOrder start? = (p.releasedFrom start? ++ before) ++ v :: after := by
      rw [visitOrder_eq_append, hsplit, List.append_assoc]
    rw [pair_sublist_iff_of_split nodup_visitOrder horder, List.mem_append,
      pair_sublist_iff_of_split hleft hsplit]

end ProcessChart.ProcessGraph
