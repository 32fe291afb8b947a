import ProcessChart.Layout.Place
import ProcessChart.Proofs.LevelLaw

/-!
A process that is one chain. With a single flow from every node to the node
behind it, nothing splits and nothing merges: levels count the nodes and every
node lies in column zero.
-/

namespace ProcessChart.ProcessGraph

variable {p : ProcessGraph} {start? : Option String}

section Columns

/-- Every id lies in column zero. -/
def Straight (columns : Table Int) : Prop := ∀ id, (columns.get? id).getD 0 = 0

theorem Straight.insert {columns : Table Int} (h : Straight columns) (id : String) :
    Straight (columns.insert id 0) := by
  intro x
  rw [Table.get?_insert]
  by_cases hx : x = id
  · rw [if_pos hx, Option.getD_some]
  · rw [if_neg hx, h x]

theorem Straight.insertNew {columns : Table Int} (h : Straight columns) (id : String) :
    Straight (columns.insertNew id 0) := by
  rw [Table.insertNew]
  split
  · exact h
  · exact h.insert id

theorem entries_zero {id : String} (hsplit : (p.successors id).length ≤ 1) :
    ∀ e ∈ p.entries id 0, e.2 = 0 := by
  rw [entries]
  split
  · simp
  · simp
  · next hnil hsingle =>
    match h : p.successors id with
    | [] => exact absurd h hnil
    | [x] => exact absurd h (hsingle x)
    | x :: y :: rest => simp [h] at hsplit

/-- Without splits a walk that begins in column zero stays there. -/
theorem straight_walk (hsplit : ∀ id, (p.successors id).length ≤ 1) {columns : Table Int}
    {waiting : List (String × Int)} (hcolumns : Straight columns)
    (hwaiting : ∀ e ∈ waiting, e.2 = 0) : Straight (p.walk columns waiting) := by
  fun_induction p.walk columns waiting with
  | case1 columns => exact hcolumns
  | case2 columns id column rest h ih =>
    exact ih hcolumns fun e he => hwaiting e (List.mem_cons_of_mem _ he)
  | case3 columns id column rest h ih =>
    obtain rfl : column = 0 := hwaiting (id, column) List.mem_cons_self
    refine ih (hcolumns.insert id) fun e he => ?_
    rcases List.mem_append.mp he with he | he
    · exact entries_zero (hsplit id) e he
    · exact hwaiting e (List.mem_cons_of_mem _ he)

theorem centre_of_no_merge {columns : Table Int} {id : String}
    (hmerge : (p.predecessors id).length ≤ 1) : p.centre columns id = columns := by
  rw [centre, if_neg (Nat.not_lt_of_le hmerge)]

/-- Where nothing splits and nothing merges, every node lies in column zero. -/
theorem straight_columns (hsplit : ∀ id, (p.successors id).length ≤ 1)
    (hmerge : ∀ id, (p.predecessors id).length ≤ 1) : Straight (p.columns start?) := by
  have hwalked : Straight (p.walkedColumns start?) :=
    straight_walk hsplit (fun _ => rfl) (by simp)
  have hcentred : ∀ ids : List String, ids.foldl p.centre (p.walkedColumns start?) =
      p.walkedColumns start? := by
    intro ids
    induction ids with
    | nil => rfl
    | cons id rest ih => rw [List.foldl_cons, centre_of_no_merge (hmerge id), ih]
  have hfilled : ∀ (ids : List String) {columns : Table Int}, Straight columns →
      Straight (ids.foldl (fun t id => t.insertNew id 0) columns) := by
    intro ids
    induction ids with
    | nil => exact fun h => h
    | cons id rest ih => exact fun h => ih (h.insertNew id)
  rw [columns, hcentred]
  exact hfilled _ hwalked

end Columns

/-- The flows are the pairs of neighbouring nodes, in order and each once. -/
structure IsChain (p : ProcessGraph) : Prop where
  ids_distinct : p.nodeIds.Nodup
  links : p.flows.map (fun f => (f.source, f.target)) = p.nodeIds.zip p.nodeIds.tail
  starts : p.startId? = p.nodeIds.head?

/-- At most one item has a key when the keys are distinct. -/
theorem length_filter_le_one {α : Type} {key : α → String} {items : List α}
    (h : (items.map key).Nodup) (id : String) :
    (items.filter fun a => key a = id).length ≤ 1 := by
  have hcount := List.nodup_iff_count_le_one.mp h id
  rw [List.count_eq_countP, List.countP_map, List.countP_eq_length_filter] at hcount
  exact hcount

namespace IsChain

variable {u v : String} {i : Nat}

theorem mem_predecessors_iff (h : p.IsChain) :
    u ∈ p.predecessors v ↔ ∃ i, p.nodeIds[i]? = some u ∧ p.nodeIds[i + 1]? = some v := by
  have hflow : u ∈ p.predecessors v ↔
      (u, v) ∈ p.flows.map fun f => (f.source, f.target) := by
    rw [mem_predecessors, List.mem_map]
    simp only [Prod.mk.injEq, and_comm]
  rw [hflow, h.links, List.mem_iff_getElem?]
  simp only [List.getElem?_zip_eq_some, List.getElem?_tail]

theorem ends_mem (h : p.IsChain) {f : Flow} (hf : f ∈ p.flows) :
    f.source ∈ p.nodeIds ∧ f.target ∈ p.nodeIds := by
  have hlink : (f.source, f.target) ∈ p.nodeIds.zip p.nodeIds.tail := by
    rw [← h.links]
    exact List.mem_map_of_mem hf
  obtain ⟨hsource, htarget⟩ := List.of_mem_zip hlink
  exact ⟨hsource, List.mem_of_mem_tail htarget⟩

theorem position_eq (h : p.IsChain) {j : Nat} (hi : p.nodeIds[i]? = some u)
    (hj : p.nodeIds[j]? = some u) : i = j :=
  (List.getElem?_inj (List.getElem?_eq_some_iff.mp hi).1 h.ids_distinct).mp (hi.trans hj.symm)

theorem eq_startId (h : p.IsChain) (hv : p.nodeIds[0]? = some v) : some v = p.startId? := by
  rw [h.starts, List.head?_eq_getElem?, hv]

theorem ne_startId (h : p.IsChain) (hv : p.nodeIds[i + 1]? = some v) : some v ≠ p.startId? := by
  intro hstart
  rw [h.starts, List.head?_eq_getElem?] at hstart
  have := h.position_eq hv hstart.symm
  omega

/-- The one node in front of a node is its only predecessor. -/
theorem predecessor_eq (h : p.IsChain) {w : String} (hu : p.nodeIds[i]? = some u)
    (hv : p.nodeIds[i + 1]? = some v) (hw : w ∈ p.predecessors v) : w = u := by
  obtain ⟨j, hj, hj'⟩ := h.mem_predecessors_iff.mp hw
  obtain rfl : j = i := Nat.succ.inj (h.position_eq hj' hv)
  exact Option.some.inj (hj.symm.trans hu)

theorem exists_before (hv : p.nodeIds[i + 1]? = some v) : ∃ u, p.nodeIds[i]? = some u := by
  have hlength := (List.getElem?_eq_some_iff.mp hv).1
  exact ⟨p.nodeIds[i], List.getElem?_eq_getElem (by omega)⟩

/-- The visit runs along the whole chain. -/
theorem mem_releasedFrom (h : p.IsChain) (hv : p.nodeIds[i]? = some v) :
    v ∈ p.releasedFrom p.startId? := by
  have hnode : v ∈ p.nodeIds := List.mem_of_getElem? hv
  induction i generalizing v with
  | zero => exact mem_releasedFrom_of_released hnode (Or.inl (h.eq_startId hv))
  | succ i ih =>
    obtain ⟨u, hu⟩ := exists_before hv
    have hpredecessor : u ∈ p.predecessors v := h.mem_predecessors_iff.mpr ⟨i, hu, hv⟩
    apply mem_releasedFrom_of_released hnode
    refine Or.inr ⟨List.ne_nil_of_mem hpredecessor, fun w hw => ?_⟩
    rw [h.predecessor_eq hu hv hw]
    exact ih hu (List.mem_of_getElem? hu)

/-- The level of a node is its position in the chain. -/
theorem levelOf_eq (h : p.IsChain) (hv : p.nodeIds[i]? = some v) :
    p.levelOf p.startId? v = i := by
  induction i generalizing v with
  | zero => rw [← h.eq_startId hv, levelOf_start]
  | succ i ih =>
    obtain ⟨u, hu⟩ := exists_before hv
    have hnode : v ∈ p.nodeIds := List.mem_of_getElem? hv
    have hstart := h.ne_startId hv
    have hpredecessor : u ∈ p.predecessors v := h.mem_predecessors_iff.mpr ⟨i, hu, hv⟩
    obtain ⟨w, hw, hlevel⟩ :=
      exists_countedLevel_eq hnode hstart (List.ne_nil_of_mem hpredecessor)
    have hbefore : [u, v].Sublist (p.visitOrder p.startId?) := by
      rcases start_or_follows_of_released (h.mem_releasedFrom hv) with hfirst | ⟨-, hall⟩
      · exact absurd hfirst hstart
      · exact (hall u hpredecessor).trans (List.sublist_append_left _ _)
    rw [hlevel, h.predecessor_eq hu hv hw, countedLevel, if_pos hbefore, ih hu]

theorem length_successors_le (h : p.IsChain) (id : String) : (p.successors id).length ≤ 1 := by
  have hsources : p.flows.map Flow.source = (p.nodeIds.zip p.nodeIds.tail).map Prod.fst := by
    rw [← h.links, List.map_map]
    rfl
  have hdistinct : (p.flows.map Flow.source).Nodup := by
    rw [hsources, List.zip_eq_zip_take_min, List.map_fst_zip (by simp)]
    exact h.ids_distinct.sublist (List.take_sublist _ _)
  rw [length_successors, flowsFrom]
  exact length_filter_le_one hdistinct id

theorem length_predecessors_le (h : p.IsChain) (id : String) :
    (p.predecessors id).length ≤ 1 := by
  have htargets : p.flows.map Flow.target = (p.nodeIds.zip p.nodeIds.tail).map Prod.snd := by
    rw [← h.links, List.map_map]
    rfl
  have hdistinct : (p.flows.map Flow.target).Nodup := by
    rw [htargets, List.map_snd_zip (by simp)]
    exact h.ids_distinct.sublist (List.tail_sublist _)
  rw [predecessors, List.length_map, flowsInto]
  exact length_filter_le_one hdistinct id

/-- A chain is placed one node below the other. -/
theorem place_of_getElem? (h : p.IsChain) (s : LayoutSettings) {n : NodePlace}
    (hn : (p.placeNodes s)[i]? = some n) : n.level = i ∧ n.column = 0 := by
  rw [placeNodes, List.getElem?_map, Option.map_eq_some_iff] at hn
  obtain ⟨node, hnode, rfl⟩ := hn
  have hid : p.nodeIds[i]? = some node.id := by rw [nodeIds, List.getElem?_map, hnode]; rfl
  have hcolumns : Straight (p.columns p.startId?) :=
    straight_columns h.length_successors_le h.length_predecessors_le
  exact ⟨h.levelOf_eq hid, hcolumns node.id⟩

end IsChain

end ProcessChart.ProcessGraph
