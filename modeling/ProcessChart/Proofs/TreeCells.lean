import ProcessChart.Proofs.Admission
import ProcessChart.Proofs.LongestPath
import ProcessChart.Proofs.Splits

/-!
Where the nodes of a tree are drawn. In a process in which one path leads from the
start to every node, the level of a node is the length of its path and its column
the sum of the offsets along it. Nothing keeps apart the branches of different
splits, so two nodes share a cell exactly when their paths, from where they part,
are equally long and lead equally far to the side.
-/

namespace ProcessChart

/-- Where a node lies on the grid. -/
def NodePlace.cell (n : NodePlace) : Nat × Int := (n.level, n.column)

namespace ProcessGraph

variable {p : ProcessGraph} {u v w a b : String} {ids ids' : List String}
  {offsets offsets' : List Int} {n k : Nat}

/-- The start leads to every node; no flow enters the start, and one enters every other node. -/
structure IsTree (p : ProcessGraph) : Prop where
  reached : ∀ id ∈ p.nodeIds, ∃ s ∈ p.startId?, ∃ n, p.Path s id n
  entered : ∀ id ∈ p.nodeIds, (p.flowsInto id).length = if some id = p.startId? then 0 else 1

/-- From one id trails lead to both ids over different branches; they are equally long
and their offsets add up to the same. -/
def Converge (p : ProcessGraph) (a b : String) : Prop :=
  ∃ u ids offsets ids' offsets', p.Trail u ids offsets a ∧ p.Trail u ids' offsets' b ∧
    offsets.head? ≠ offsets'.head? ∧ ids.length = ids'.length ∧ offsets.sum = offsets'.sum

/-- The node has several branches. -/
def IsSplit (p : ProcessGraph) (id : String) : Prop := 1 < (p.flowsFrom id).length

/-- No path leads from a branch of a split to a split. -/
def Unnested (p : ProcessGraph) : Prop :=
  ∀ u v w n, p.IsSplit u → v ∈ p.successors u → p.Path v w n → ¬ p.IsSplit w

instance (p : ProcessGraph) (id : String) : Decidable (p.IsSplit id) :=
  inferInstanceAs (Decidable (1 < (p.flowsFrom id).length))

/-- Equally long lists that begin differently have something to begin with. -/
theorem exists_cons_of_head?_ne {xs ys : List Int} (hlength : xs.length = ys.length)
    (hhead : xs.head? ≠ ys.head?) :
    ∃ x xs' y ys', xs = x :: xs' ∧ ys = y :: ys' ∧ x ≠ y := by
  cases xs with
  | nil => exact absurd (by rw [List.length_eq_zero_iff.mp hlength.symm]) hhead
  | cons x xs' =>
    cases ys with
    | nil => exact absurd hlength (Nat.succ_ne_zero _)
    | cons y ys' => exact ⟨x, xs', y, ys', rfl, rfl, fun h => hhead (congrArg some h)⟩

namespace Trail

theorem length_offsets (h : p.Trail u ids offsets v) : offsets.length = ids.length := by
  induction h with
  | nil => rfl
  | snoc _ _ ih => rw [List.length_append, List.length_append, ih]; rfl

theorem single {i : Nat} (h : (p.successors u)[i]? = some v) :
    p.Trail u [u] [p.offsetAt u i] v := Trail.nil.snoc h

/-- A trail that is not empty takes a branch of its first id. -/
theorem exists_first (h : p.Trail u ids offsets v) (hoffsets : offsets ≠ []) :
    ∃ i w ids' offsets', (p.successors u)[i]? = some w ∧ p.Trail w ids' offsets' v ∧
      offsets = p.offsetAt u i :: offsets' := by
  induction h with
  | nil => exact absurd rfl hoffsets
  | @snoc ids offsets x v i htrail hv ih =>
    cases htrail with
    | nil => exact ⟨i, v, [], [], hv, .nil, rfl⟩
    | snoc htrail' hx =>
      obtain ⟨j, w, ids', offsets', hw, hrest, hoffsets⟩ := ih (by simp)
      exact ⟨j, w, ids' ++ [x], offsets' ++ [p.offsetAt x i], hw, hrest.snoc hv, by
        rw [hoffsets, List.cons_append]⟩

/-- Equally long trails from one id to different ids part somewhere. -/
theorem exists_fork (ha : p.Trail u ids offsets a) (hb : p.Trail u ids' offsets' b)
    (hlength : ids.length = ids'.length) (hne : a ≠ b) :
    ∃ w n, p.Path u w n ∧ ∃ ids₁ offsets₁ ids₂ offsets₂,
      p.Trail w ids₁ offsets₁ a ∧ p.Trail w ids₂ offsets₂ b ∧
      offsets₁.head? ≠ offsets₂.head? ∧ ids₁.length = ids₂.length := by
  induction ha generalizing ids' offsets' b with
  | nil =>
    cases hb with
    | nil => exact absurd rfl hne
    | snoc => simp at hlength
  | @snoc ids offsets x a i hx ha ih =>
    cases hb with
    | nil => simp at hlength
    | @snoc ids' offsets' y _ j hy hb =>
      have hshort : ids.length = ids'.length := by simpa using hlength
      by_cases hxy : x = y
      · subst hxy
        refine ⟨x, _, hx.path, _, _, _, _, single ha, single hb, ?_, rfl⟩
        have hij : i ≠ j := by
          rintro rfl
          exact hne (Option.some.inj (ha.symm.trans hb))
        have hoffset := offsetAt_ne ha hb hij
        simpa using hoffset
      · obtain ⟨w, n, hpath, ids₁, offsets₁, ids₂, offsets₂, h₁, h₂, hhead, hlen⟩ :=
          ih hy hshort hxy
        have hoffsets : offsets₁.length = offsets₂.length := by
          rw [h₁.length_offsets, h₂.length_offsets, hlen]
        obtain ⟨_, _, _, _, rfl, rfl, hfirst⟩ := exists_cons_of_head?_ne hoffsets hhead
        refine ⟨w, n, hpath, _, _, _, _, h₁.snoc ha, h₂.snoc hb, ?_, by simp [hlen]⟩
        simpa using hfirst

end Trail

/-- The cell in which a node is drawn. -/
def cellOf (p : ProcessGraph) (id : String) : Nat × Int :=
  (p.levelOf p.startId? id, columnOf (p.columns p.startId?) id)

namespace IsTree

variable (htree : p.IsTree) (hends : ∀ f ∈ p.flows, p.isDangling f = false)

include htree

theorem start_unentered {s : String} (hs : s ∈ p.startId?) : p.predecessors s = [] := by
  have hnone := htree.entered s (mem_nodeIds_of_mem_startId? hs)
  rw [if_pos hs.symm, List.length_eq_zero_iff] at hnone
  rw [predecessors, hnone, List.map_nil]

include hends

theorem lone_branch {i : Nat} (h : (p.successors u)[i]? = some v) :
    p.LoneBranch p.startId? u i v := by
  rw [getElem?_successors, Option.map_eq_some_iff] at h
  obtain ⟨f, hf, rfl⟩ := h
  have hflow : f ∈ p.flows := (List.mem_filter.mp (List.mem_of_getElem? hf)).1
  have hinto : f ∈ p.flowsInto f.target := List.mem_filter.mpr ⟨hflow, by simp⟩
  have hcount := htree.entered f.target (isDangling_eq_false_iff.mp (hends f hflow)).2
  have hsome : 0 < (p.flowsInto f.target).length := List.length_pos_of_mem hinto
  have hstart : some f.target ≠ p.startId? := by
    intro hs
    rw [if_pos hs] at hcount
    omega
  rw [if_neg hstart] at hcount
  obtain ⟨g, hg⟩ := List.length_eq_one_iff.mp hcount
  rw [hg, List.mem_singleton] at hinto
  exact ⟨⟨f, hf, hinto ▸ hg⟩, hstart⟩

theorem predecessor_unique (hu : u ∈ p.predecessors v) (hw : w ∈ p.predecessors v) : u = w := by
  obtain ⟨f, hf, hfv, rfl⟩ := mem_predecessors.mp hu
  obtain ⟨g, hg, hgv, rfl⟩ := mem_predecessors.mp hw
  obtain ⟨i, hi⟩ := List.mem_iff_getElem?.mp (mem_successors.mpr ⟨f, hf, rfl, hfv⟩)
  obtain ⟨j, hj⟩ := List.mem_iff_getElem?.mp (mem_successors.mpr ⟨g, hg, rfl, hgv⟩)
  exact ((htree.lone_branch hends hj).eq_of_getElem? hi).1

/-- Going back from an id there is only one way, and it ends at the start. -/
theorem path_unique {s : String} (hs : s ∈ p.startId?) (h : p.Path s v n) (h' : p.Path s v k) :
    n = k := by
  induction h generalizing k with
  | nil =>
    cases k with
    | zero => rfl
    | succ k =>
      obtain ⟨u, hu, -⟩ := path_succ_iff.mp h'
      rw [htree.start_unentered hs] at hu
      exact absurd hu List.not_mem_nil
  | @tail n f hf h ih =>
    have hsource : f.source ∈ p.predecessors f.target := mem_predecessors.mpr ⟨f, hf, rfl, rfl⟩
    cases k with
    | zero =>
      rw [path_zero_iff.mp h', htree.start_unentered hs] at hsource
      exact absurd hsource List.not_mem_nil
    | succ k =>
      obtain ⟨u, hu, hshort⟩ := path_succ_iff.mp h'
      obtain rfl := htree.predecessor_unique hends hu hsource
      rw [ih hshort]

theorem acyclic : p.Acyclic := by
  intro a n h
  cases h with
  | nil => rfl
  | tail f hf h =>
    obtain ⟨s, hs, m, hlead⟩ := htree.reached f.target (isDangling_eq_false_iff.mp (hends f hf)).2
    have hround := htree.path_unique hends hs hlead (hlead.trans (h.tail f hf))
    omega

theorem levelOf_eq {s : String} (hs : s ∈ p.startId?) (hnode : v ∈ p.nodeIds)
    (h : p.Path s v n) : p.levelOf p.startId? v = n := by
  have hacyc := htree.acyclic hends
  obtain ⟨d, hd⟩ := hacyc.exists_depth v
  have hdeepest := isGreatest_path_of_depth hends htree.reached hs hnode hd
  rw [levelOf_eq_depth hacyc (fun _ => htree.start_unentered)
    (timely_of_reachable hends hacyc htree.reached) hnode hd]
  exact htree.path_unique hends hs hdeepest.1 h

theorem get?_walkedColumns {column : Int} (h : p.Trail u ids offsets v)
    (hu : (p.walkedColumns p.startId?).get? u = some column) :
    (p.walkedColumns p.startId?).get? v = some (column + offsets.sum) := by
  induction h with
  | nil => rw [hu, List.sum_nil, Int.add_zero]
  | snoc h hv ih =>
    rw [(htree.lone_branch hends hv).get?_walkedColumns ih, List.sum_append, List.sum_singleton,
      Int.add_assoc]

omit hends in
theorem columnOf_eq {column : Int} (hnode : v ∈ p.nodeIds)
    (hv : (p.walkedColumns p.startId?).get? v = some column) :
    columnOf (p.columns p.startId?) v = column := by
  have hsingle : (p.flowsInto v).length ≤ 1 := by
    rw [htree.entered v hnode]
    split <;> omega
  rw [columnOf, get?_columns_of_walked hsingle hv, Option.getD_some]

/-- Along a trail the cell moves down by its length and to the side by its offsets. -/
theorem cellOf_trail (hu : u ∈ p.nodeIds) (hv : v ∈ p.nodeIds) (h : p.Trail u ids offsets v) :
    p.cellOf v = ((p.cellOf u).1 + ids.length, (p.cellOf u).2 + offsets.sum) := by
  obtain ⟨s, hs, n, hpath⟩ := htree.reached u hu
  obtain ⟨column, hcolumn⟩ :=
    Option.isSome_iff_exists.mp (contains_walkedColumns_iff.mpr ⟨s, hs, n, hpath⟩)
  have hlater := htree.get?_walkedColumns hends h hcolumn
  rw [cellOf, cellOf, htree.levelOf_eq hends hs hu hpath,
    htree.levelOf_eq hends hs hv (hpath.trans h.path), htree.columnOf_eq hu hcolumn,
    htree.columnOf_eq hv hlater]

theorem exists_trail (hv : v ∈ p.nodeIds) :
    ∃ s ∈ p.startId?, ∃ ids offsets, p.Trail s ids offsets v ∧
      p.cellOf v = (ids.length, offsets.sum) := by
  obtain ⟨column, hcolumn⟩ :=
    Option.isSome_iff_exists.mp (contains_walkedColumns_iff.mpr (htree.reached v hv))
  obtain ⟨s, hs, ids, offsets, htrail, -, -⟩ := exists_trail_of_get? hcolumn
  have hnode : s ∈ p.nodeIds := mem_nodeIds_of_mem_startId? hs
  have hzero : p.cellOf s = (0, 0) := by
    rw [cellOf, htree.levelOf_eq hends hs hnode .nil,
      htree.columnOf_eq hnode (get?_walkedColumns_start hs)]
  refine ⟨s, hs, ids, offsets, htrail, ?_⟩
  rw [htree.cellOf_trail hends hnode hv htrail, hzero, Nat.zero_add, Int.zero_add]

theorem cellOf_eq_iff (ha : a ∈ p.nodeIds) (hb : b ∈ p.nodeIds) (hne : a ≠ b) :
    p.cellOf a = p.cellOf b ↔ p.Converge a b := by
  constructor
  · intro h
    obtain ⟨s, hs, ids, offsets, htrail, hcell⟩ := htree.exists_trail hends ha
    obtain ⟨s', hs', ids', offsets', htrail', hcell'⟩ := htree.exists_trail hends hb
    obtain rfl : s = s' := Option.mem_unique hs hs'
    have hlevel : ids.length = ids'.length := by
      have hcells := congrArg Prod.fst h
      rwa [hcell, hcell'] at hcells
    obtain ⟨u, n, hpath, ids₁, offsets₁, ids₂, offsets₂, h₁, h₂, hhead, hlength⟩ :=
      htrail.exists_fork htrail' hlevel hne
    have hu := path_begins_at_node hends h₁.path ha
    have hsum := congrArg Prod.snd h
    rw [htree.cellOf_trail hends hu ha h₁, htree.cellOf_trail hends hu hb h₂] at hsum
    exact ⟨u, ids₁, offsets₁, ids₂, offsets₂, h₁, h₂, hhead, hlength, Int.add_left_cancel hsum⟩
  · rintro ⟨u, ids, offsets, ids', offsets', h, h', -, hlength, hsum⟩
    have hu := path_begins_at_node hends h.path ha
    rw [htree.cellOf_trail hends hu ha h, htree.cellOf_trail hends hu hb h', hlength, hsum]

end IsTree

/-- A process is a tree when every node but the start follows on a node declared before it. -/
theorem isTree_of_earlier
    (hentered : ∀ id ∈ p.nodeIds,
      (p.flowsInto id).length = if some id = p.startId? then 0 else 1)
    (hearlier : ∀ v ∈ p.nodeIds, some v = p.startId? ∨
      ∃ u ∈ p.predecessors v, p.nodeIds.idxOf u < p.nodeIds.idxOf v) :
    p.IsTree where
  entered := hentered
  reached := by
    intro v hv
    induction h : p.nodeIds.idxOf v using Nat.strongRecOn generalizing v with
    | _ position ih =>
      subst h
      rcases hearlier v hv with hstart | ⟨u, hu, hlt⟩
      · exact ⟨v, hstart.symm, 0, .nil⟩
      · have hnode : u ∈ p.nodeIds := by
          rw [← List.idxOf_lt_length_iff]
          exact hlt.trans (List.idxOf_lt_length_iff.mpr hv)
        obtain ⟨s, hs, n, hpath⟩ := ih _ hlt u hnode rfl
        exact ⟨s, hs, n + 1, hpath.snoc hu⟩

/-- Splits are not nested when their branches lead only to ids none of which is a split. -/
theorem unnested_of_closed (below : List String)
    (hbranch : ∀ f ∈ p.flows, p.IsSplit f.source → f.target ∈ below)
    (hclosed : ∀ f ∈ p.flows, f.source ∈ below → f.target ∈ below)
    (hstraight : ∀ id ∈ below, ¬ p.IsSplit id) : p.Unnested := by
  intro u v w n hsplit hv hpath
  obtain ⟨f, hf, rfl, rfl⟩ := mem_successors.mp hv
  refine hstraight w ?_
  induction hpath with
  | nil => exact hbranch f hf hsplit
  | tail g hg _ ih => exact hclosed g hg ih

theorem offsetAt_eq_zero {i : Nat} (h : ¬ p.IsSplit u) : p.offsetAt u i = 0 := by
  rw [offsetAt, length_successors, if_pos (Nat.le_of_not_lt h)]

theorem Trail.sum_eq_zero (h : p.Trail u ids offsets v)
    (hflat : ∀ w n, p.Path u w n → ¬ p.IsSplit w) : offsets.sum = 0 := by
  induction h with
  | nil => rfl
  | snoc h _ ih =>
    rw [List.sum_append, ih, List.sum_singleton, offsetAt_eq_zero (hflat _ _ h.path), Int.add_zero]

/-- Behind its split a branch stays in its column when no other split follows. -/
theorem Unnested.not_converge (hunnested : p.Unnested) (a b : String) : ¬ p.Converge a b := by
  rintro ⟨u, ids, offsets, ids', offsets', h, h', hhead, hlength, hsum⟩
  have hoffsets : offsets.length = offsets'.length := by
    rw [h.length_offsets, h'.length_offsets, hlength]
  obtain ⟨x, xs, y, ys, rfl, rfl, hne⟩ := exists_cons_of_head?_ne hoffsets hhead
  obtain ⟨i, v, rest, further, hv, hrest, hx⟩ := h.exists_first (List.cons_ne_nil _ _)
  obtain ⟨j, w, rest', further', hw, hrest', hy⟩ := h'.exists_first (List.cons_ne_nil _ _)
  obtain ⟨rfl, rfl⟩ := List.cons.inj hx
  obtain ⟨rfl, rfl⟩ := List.cons.inj hy
  have hsplit : p.IsSplit u := by
    by_contra hsingle
    rw [offsetAt_eq_zero hsingle, offsetAt_eq_zero hsingle] at hne
    exact hne rfl
  have hstays := hrest.sum_eq_zero fun z n => hunnested u v z n hsplit (List.mem_of_getElem? hv)
  have hstays' := hrest'.sum_eq_zero fun z n => hunnested u w z n hsplit (List.mem_of_getElem? hw)
  rw [List.sum_cons, List.sum_cons, hstays, hstays', Int.add_zero, Int.add_zero] at hsum
  exact hne hsum

section Layout

variable {s : LayoutSettings} {d : Diagram}

theorem cell_of_layOut (h : p.layOut s = .ok d) {n : NodePlace} (hn : n ∈ d.nodes) :
    n.cell = p.cellOf n.id := by
  obtain ⟨-, hnodes, -⟩ := layOut_eq_ok_iff.mp h
  rw [hnodes] at hn
  obtain ⟨m, -, rfl⟩ := List.mem_map.mp hn
  rfl

theorem mem_nodeIds_of_layOut (h : p.layOut s = .ok d) {n : NodePlace} (hn : n ∈ d.nodes) :
    n.id ∈ p.nodeIds := by
  rw [← (ids_of_layOut h).1]
  exact List.mem_map_of_mem hn

theorem nodup_cells_iff (h : p.layOut s = .ok d) (hids : p.nodeIds.Nodup) :
    (d.nodes.map NodePlace.cell).Nodup ↔
      ∀ m ∈ d.nodes, ∀ n ∈ d.nodes, m.id ≠ n.id → m.cell ≠ n.cell := by
  rw [← (ids_of_layOut h).1] at hids
  have hinj := List.inj_on_of_nodup_map hids
  rw [List.nodup_map_iff_inj_on hids.of_map]
  constructor
  · intro hcells m hm n hn hne hcell
    exact hne (congrArg NodePlace.id (hcells m hm n hn hcell))
  · intro hapart m hm n hn hcell
    by_contra hne
    exact hapart m hm n hn (fun hid => hne (hinj hm hn hid)) hcell

end Layout

/-- A tree that is valid is laid out, every node at the end of a trail from the start as
far down as the trail is long and as far to the side as its offsets add up to. Two nodes
share a cell exactly when trails to them that part at some id converge, and no two nodes
share one exactly when none converge, in particular when no split follows on a split. -/
theorem compile_tree_cells (p : ProcessGraph) (s : LayoutSettings) (hvalid : p.isValid = true)
    (htree : p.IsTree) :
    ∃ c, p.compile s = .ok c ∧
      (∀ n ∈ c.diagram.nodes, ∃ start ∈ p.startId?, ∃ ids offsets,
        p.Trail start ids offsets n.id ∧ n.level = ids.length ∧ n.column = offsets.sum) ∧
      (∀ m ∈ c.diagram.nodes, ∀ n ∈ c.diagram.nodes, m.id ≠ n.id →
        (m.level = n.level ∧ m.column = n.column ↔ p.Converge m.id n.id)) ∧
      ((c.diagram.nodes.map NodePlace.cell).Nodup ↔
        ∀ a ∈ p.nodeIds, ∀ b ∈ p.nodeIds, a ≠ b → ¬ p.Converge a b) ∧
      (p.Unnested → (c.diagram.nodes.map NodePlace.cell).Nodup) := by
  have hadmissible := isValid_iff.mp hvalid
  have hends : ∀ f ∈ p.flows, p.isDangling f = false := by
    intro f hf
    simpa only [isDangling_eq_false_iff, mem_nodeIds] using hadmissible.ends_exist f hf
  have hnodup : p.nodeIds.Nodup := (nodup_documentIds_iff.mp hadmissible.ids_distinct).1
  obtain ⟨d, hd, hc⟩ := compile_of_admissible (s := s) hadmissible
  have hshared : ∀ m ∈ d.nodes, ∀ n ∈ d.nodes, m.id ≠ n.id →
      (m.cell = n.cell ↔ p.Converge m.id n.id) := by
    intro m hm n hn hne
    rw [cell_of_layOut hd hm, cell_of_layOut hd hn]
    exact htree.cellOf_eq_iff hends (mem_nodeIds_of_layOut hd hm) (mem_nodeIds_of_layOut hd hn) hne
  have hown : (d.nodes.map NodePlace.cell).Nodup ↔
      ∀ a ∈ p.nodeIds, ∀ b ∈ p.nodeIds, a ≠ b → ¬ p.Converge a b := by
    rw [nodup_cells_iff hd hnodup, ← (ids_of_layOut hd).1]
    simp only [List.forall_mem_map]
    exact forall₂_congr fun m hm => forall₂_congr fun n hn =>
      forall_congr' fun hne => not_congr (hshared m hm n hn hne)
  refine ⟨_, hc, ?_, ?_, hown, fun hunnested => ?_⟩
  · intro n hn
    obtain ⟨start, hstart, ids, offsets, htrail, hcell⟩ :=
      htree.exists_trail hends (mem_nodeIds_of_layOut hd hn)
    rw [← cell_of_layOut hd hn, NodePlace.cell, Prod.mk.injEq] at hcell
    exact ⟨start, hstart, ids, offsets, htrail, hcell⟩
  · intro m hm n hn hne
    rw [← hshared m hm n hn hne, NodePlace.cell, NodePlace.cell, Prod.mk.injEq]
  · exact hown.mpr fun a _ b _ _ => hunnested.not_converge a b

/-- Both branches of the first split are splits themselves; the right branch of the one
and the left branch of the other lie straight below the first split. -/
def nestedSplits : ProcessGraph where
  id := "P"
  name := none
  nodes := [⟨"s", .startEvent, none⟩, ⟨"a", .exclusiveGateway, none⟩,
    ⟨"b", .exclusiveGateway, none⟩, ⟨"a1", .endEvent, none⟩, ⟨"a2", .endEvent, none⟩,
    ⟨"b1", .endEvent, none⟩, ⟨"b2", .endEvent, none⟩]
  flows := [⟨"f1", "s", "a"⟩, ⟨"f2", "s", "b"⟩, ⟨"f3", "a", "a1"⟩, ⟨"f4", "a", "a2"⟩,
    ⟨"f5", "b", "b1"⟩, ⟨"f6", "b", "b2"⟩]

theorem isTree_nestedSplits : nestedSplits.IsTree :=
  isTree_of_earlier (by decide) (by decide)

/-- Two end events are drawn on top of each other. -/
theorem nestedSplits_shares_cell :
    nestedSplits.isValid = true ∧ nestedSplits.IsTree ∧
      ∃ c, nestedSplits.compile .standard = .ok c ∧
        ∃ m ∈ c.diagram.nodes, ∃ n ∈ c.diagram.nodes, m.id = "a2" ∧ n.id = "b1" ∧
          (m.level = 2 ∧ m.column = 0) ∧ (n.level = 2 ∧ n.column = 0) := by
  have hvalid : nestedSplits.isValid = true := by decide
  obtain ⟨d, hd, hc⟩ := compile_of_admissible (s := .standard) (isValid_iff.mp hvalid)
  have hcell : ∀ id ∈ ["a2", "b1"], nestedSplits.cellOf id = (2, 0) := by decide +kernel
  have hdrawn : ∀ id ∈ ["a2", "b1"], ∃ n ∈ d.nodes, n.id = id ∧ n.level = 2 ∧ n.column = 0 := by
    intro id hid
    have hnode : id ∈ nestedSplits.nodeIds := by
      have hsub : ["a2", "b1"] ⊆ nestedSplits.nodeIds := by decide
      exact hsub hid
    rw [← (ids_of_layOut hd).1] at hnode
    obtain ⟨n, hn, rfl⟩ := List.mem_map.mp hnode
    have hplace := (cell_of_layOut hd hn).trans (hcell n.id hid)
    rw [NodePlace.cell, Prod.mk.injEq] at hplace
    exact ⟨n, hn, rfl, hplace⟩
  obtain ⟨m, hm, hmid, hmcell⟩ := hdrawn "a2" (by decide)
  obtain ⟨n, hn, hnid, hncell⟩ := hdrawn "b1" (by decide)
  exact ⟨hvalid, isTree_nestedSplits, _, hc, m, hm, n, hn, hmid, hnid, hmcell, hncell⟩

/-- A split in three, whose branches go on straight. -/
def singleSplit : ProcessGraph where
  id := "P"
  name := none
  nodes := [⟨"s", .startEvent, none⟩, ⟨"g", .exclusiveGateway, none⟩, ⟨"x", .task, none⟩,
    ⟨"y", .task, none⟩, ⟨"z", .endEvent, none⟩, ⟨"x1", .endEvent, none⟩, ⟨"y1", .endEvent, none⟩]
  flows := [⟨"f1", "s", "g"⟩, ⟨"f2", "g", "x"⟩, ⟨"f3", "g", "y"⟩, ⟨"f4", "g", "z"⟩,
    ⟨"f5", "x", "x1"⟩, ⟨"f6", "y", "y1"⟩]

theorem isTree_singleSplit : singleSplit.IsTree :=
  isTree_of_earlier (by decide) (by decide)

theorem unnested_singleSplit : singleSplit.Unnested :=
  unnested_of_closed ["x", "y", "z", "x1", "y1"] (by decide) (by decide) (by decide)

theorem singleSplit_own_cells :
    (singleSplit.isValid = true ∧ singleSplit.IsTree ∧ singleSplit.Unnested) ∧
      ∃ c, singleSplit.compile .standard = .ok c ∧
        (c.diagram.nodes.map NodePlace.cell).Nodup := by
  have hvalid : singleSplit.isValid = true := by decide
  obtain ⟨c, hc, -, -, -, hunnested⟩ :=
    compile_tree_cells singleSplit .standard hvalid isTree_singleSplit
  exact ⟨⟨hvalid, isTree_singleSplit, unnested_singleSplit⟩, c, hc, hunnested unnested_singleSplit⟩

end ProcessGraph

end ProcessChart
