import ProcessChart.Layout.Columns
import Mathlib.Data.List.Nodup
import Mathlib.Data.Rat.Floor
import Mathlib.Tactic.FieldSimp
import Mathlib.Tactic.Ring

/-!
Where the columns end up after the walk. The merges move one after the other,
each to the middle of its predecessors as these lie at that moment. A merge whose
merging predecessors all moved before it therefore lies in the middle of their
final columns, and whatever is no merge stays where the walk left it.
-/

namespace ProcessChart.ProcessGraph

variable {p : ProcessGraph} {start? : Option String} {columns : Table Int} {id x : String}

/-- The nearest whole number, upwards from a half. -/
def roundHalfUp (q : ℚ) : Int := ⌊q + 1 / 2⌋

theorem roundHalfUp_div (a : Int) {n : Nat} (hn : n ≠ 0) :
    roundHalfUp (a / n) = (2 * a + n) / (2 * n) := by
  have hn' : (n : ℚ) ≠ 0 := Nat.cast_ne_zero.mpr hn
  have hquotient : (a / n + 1 / 2 : ℚ) = ((2 * a + n : ℤ) : ℚ) / ((2 * n : ℕ) : ℚ) := by
    push_cast
    field_simp
  rw [roundHalfUp, hquotient, Rat.floor_intCast_div_natCast]
  rfl

theorem roundedMean_eq (values : List Int) :
    roundedMean values = roundHalfUp (values.sum / values.length) := by
  have htotal : total values = values.sum := List.sum_eq_foldr.symm
  cases values with
  | nil => norm_num [roundedMean, roundHalfUp, total]
  | cons v rest =>
    have hlength : (v :: rest).length ≠ 0 := Nat.succ_ne_zero _
    rw [roundedMean, htotal, roundHalfUp_div _ hlength]

/-- The column of an id, the centre if it has none. -/
def columnOf (columns : Table Int) (id : String) : Int := (columns.get? id).getD 0

theorem get?_centre (columns : Table Int) (id x : String) :
    (p.centre columns id).get? x =
      if x = id ∧ 1 < (p.predecessors id).length then
        some (roundedMean ((p.predecessors id).map (columnOf columns)))
      else columns.get? x := by
  rw [centre]
  by_cases hmerge : 1 < (p.predecessors id).length
  · rw [if_pos hmerge, Table.get?_insert]
    simp only [hmerge, and_true]
    rfl
  · rw [if_neg hmerge, if_neg (fun h => hmerge h.2)]

/-- An id moves only at its own turn, and only if it is a merge. -/
theorem get?_foldl_centre {ids : List String}
    (h : x ∈ ids → (p.predecessors x).length ≤ 1) :
    (ids.foldl p.centre columns).get? x = columns.get? x := by
  induction ids generalizing columns with
  | nil => rfl
  | cons id rest ih =>
    rw [List.foldl_cons, ih fun hx => h (List.mem_cons_of_mem id hx), get?_centre, if_neg]
    rintro ⟨rfl, hmerge⟩
    exact Nat.not_lt_of_le (h List.mem_cons_self) hmerge

theorem get?_foldl_insertNew (ids : List String) :
    (ids.foldl (fun t id => t.insertNew id 0) columns).get? x =
      if x ∈ ids then some (columnOf columns x) else columns.get? x := by
  induction ids generalizing columns with
  | nil => rfl
  | cons id rest ih =>
    have hnew : (columns.insertNew id 0).get? x =
        if x = id then some (columnOf columns x) else columns.get? x := by
      rw [Table.get?_insertNew, Table.contains, columnOf]
      by_cases hx : x = id
      · subst hx
        cases columns.get? x <;> simp
      · simp [hx]
    rw [List.foldl_cons, ih, columnOf, hnew]
    by_cases hx : x = id <;> by_cases hrest : x ∈ rest <;> simp [hx, hrest, columnOf]

/-- The columns after the merges have moved. -/
def centredColumns (p : ProcessGraph) (start? : Option String) : Table Int :=
  p.nodeIds.foldl p.centre (p.walkedColumns start?)

theorem get?_columns :
    (p.columns start?).get? x =
      if x ∈ p.nodeIds then some (columnOf (p.centredColumns start?) x)
      else (p.centredColumns start?).get? x :=
  get?_foldl_insertNew p.nodeIds

theorem columnOf_columns :
    columnOf (p.columns start?) x = columnOf (p.centredColumns start?) x := by
  rw [columnOf, get?_columns]
  split <;> rfl

/-- What is no merge stays where the walk left it. -/
theorem get?_columns_of_no_merge (hnode : x ∈ p.nodeIds) (h : (p.predecessors x).length ≤ 1) :
    (p.columns start?).get? x = some (columnOf (p.walkedColumns start?) x) := by
  have hstays : (p.centredColumns start?).get? x = (p.walkedColumns start?).get? x :=
    get?_foldl_centre fun _ => h
  rw [get?_columns, if_pos hnode, columnOf, columnOf, hstays]

/-- A merge whose merging predecessors stand before it lies in the middle of their final columns. -/
theorem get?_columns_of_merge {before after : List String} (hnodup : p.nodeIds.Nodup)
    (hsplit : p.nodeIds = before ++ x :: after) (hmerge : 1 < (p.predecessors x).length)
    (hearlier : ∀ u ∈ p.predecessors x, 1 < (p.predecessors u).length → u ∈ before) :
    (p.columns start?).get? x =
      some (roundedMean ((p.predecessors x).map (columnOf (p.columns start?)))) := by
  have hnode : x ∈ p.nodeIds := by simp [hsplit]
  rw [hsplit] at hnodup
  have hdisjoint := (List.nodup_append'.mp hnodup).2.2
  have hafter : x ∉ after := (List.nodup_cons.mp (List.nodup_append'.mp hnodup).2.1).1
  -- The columns at the turn of `x`.
  let reached := before.foldl p.centre (p.walkedColumns start?)
  have hcentred : p.centredColumns start? = after.foldl p.centre (p.centre reached x) := by
    rw [centredColumns, hsplit, List.foldl_append, List.foldl_cons]
  have hmoved : (p.centredColumns start?).get? x =
      some (roundedMean ((p.predecessors x).map (columnOf reached))) := by
    rw [hcentred, get?_foldl_centre fun hx => absurd hx hafter, get?_centre,
      if_pos ⟨rfl, hmerge⟩]
  have hfinal : ∀ u ∈ p.predecessors x, columnOf (p.columns start?) u = columnOf reached u := by
    intro u hu
    have hlater : u ∈ x :: after → (p.predecessors u).length ≤ 1 := by
      intro hmem
      by_contra hmany
      exact hdisjoint (hearlier u hu (Nat.lt_of_not_le hmany)) hmem
    have hstays : ((x :: after).foldl p.centre reached).get? u = reached.get? u :=
      get?_foldl_centre hlater
    rw [columnOf_columns, columnOf, hcentred, ← List.foldl_cons, hstays, ← columnOf]
  rw [get?_columns, if_pos hnode, columnOf, hmoved, Option.getD_some, List.map_congr_left hfinal]

/-- When ids are distinct, a merge whose merging predecessors are declared before it
lies on the rounded mean of the final columns of its predecessors, one for each
flow; every other node that is no merge keeps the column of the walk, or has
column zero if the walk missed it. -/
theorem columns_centred (hids : p.nodeIds.Nodup) (start? : Option String) :
    (∀ before n after, p.nodes = before ++ n :: after → 2 ≤ (p.flowsInto n.id).length →
      (∀ f ∈ p.flowsInto n.id, 2 ≤ (p.flowsInto f.source).length →
        ∃ m ∈ before, m.id = f.source) →
      (p.columns start?).get? n.id =
        some (roundHalfUp
          (((p.flowsInto n.id).map fun f => ((p.columns start?).get? f.source).getD 0).sum /
            (p.flowsInto n.id).length))) ∧
    ∀ n ∈ p.nodes, (p.flowsInto n.id).length ≤ 1 →
      (p.columns start?).get? n.id = some (((p.walkedColumns start?).get? n.id).getD 0) := by
  have hlength : ∀ id, (p.predecessors id).length = (p.flowsInto id).length := by
    simp [predecessors]
  constructor
  · intro before n after hsplit hmerge hearlier
    have hsplitIds : p.nodeIds = before.map (·.id) ++ n.id :: after.map (·.id) := by
      simp [nodeIds, hsplit]
    rw [get?_columns_of_merge hids hsplitIds (by rwa [hlength]) ?_, roundedMean_eq, predecessors,
      List.map_map, List.length_map]
    · rfl
    · intro u hu hmany
      obtain ⟨f, hf, rfl⟩ := List.mem_map.mp hu
      rw [hlength] at hmany
      exact List.mem_map.mpr (hearlier f hf hmany)
  · intro n hn hsingle
    exact get?_columns_of_no_merge (List.mem_map_of_mem hn) (by rwa [hlength])

-- Columns -1 and 0 have the mean -1/2, which is rounded to 0; the walk had left the join at -1.
example :
    (ProcessGraph.columns ⟨"P", none,
      [⟨"s", .startEvent, none⟩, ⟨"a", .task, none⟩, ⟨"b", .task, none⟩, ⟨"join", .task, none⟩],
      [⟨"f1", "s", "a"⟩, ⟨"f2", "s", "b"⟩, ⟨"f3", "a", "join"⟩, ⟨"f4", "s", "join"⟩]⟩
      (some "s")).entries =
      [("s", 0), ("a", -1), ("join", 0), ("b", 1)] := by cbv

/-- A merge of three branches leads to another merge, which is also entered from
the start and from a node that the walk misses. -/
def mergeAfterMerge : ProcessGraph where
  id := "P"
  name := none
  nodes := [⟨"s", .startEvent, none⟩, ⟨"a", .task, none⟩, ⟨"b", .task, none⟩, ⟨"m", .task, none⟩,
    ⟨"n", .endEvent, none⟩, ⟨"o", .task, none⟩]
  flows := [⟨"f1", "s", "a"⟩, ⟨"f2", "s", "b"⟩, ⟨"f3", "s", "m"⟩, ⟨"f4", "s", "n"⟩,
    ⟨"f5", "a", "m"⟩, ⟨"f6", "a", "m"⟩, ⟨"f7", "b", "m"⟩, ⟨"f8", "m", "n"⟩, ⟨"f9", "o", "n"⟩]

/-- The walk had left the second merge in column -2. -/
theorem mergeAfterMerge_centred :
    (mergeAfterMerge.nodeIds.Nodup ∧
      (∀ f ∈ mergeAfterMerge.flowsInto "n", 2 ≤ (mergeAfterMerge.flowsInto f.source).length →
        ∃ m ∈ mergeAfterMerge.nodes.take 4, m.id = f.source) ∧
      (mergeAfterMerge.flowsInto "n").length = 3 ∧ (mergeAfterMerge.flowsInto "b").length = 1) ∧
    ((mergeAfterMerge.columns (some "s")).get? "n" =
      some (roundHalfUp (((mergeAfterMerge.flowsInto "n").map fun f =>
        ((mergeAfterMerge.columns (some "s")).get? f.source).getD 0).sum /
          (mergeAfterMerge.flowsInto "n").length)) ∧
      (mergeAfterMerge.columns (some "s")).get? "n" = some 0) ∧
    (mergeAfterMerge.columns (some "s")).get? "b" =
      some (((mergeAfterMerge.walkedColumns (some "s")).get? "b").getD 0) ∧
    (mergeAfterMerge.columns (some "s")).get? "b" = some 1 := by
  have hids : mergeAfterMerge.nodeIds.Nodup := by decide
  refine ⟨⟨hids, by decide, by decide, by decide⟩, ⟨?_, by decide +kernel⟩, ?_, by decide +kernel⟩
  · exact (columns_centred hids (some "s")).1 (mergeAfterMerge.nodes.take 4) ⟨"n", .endEvent, none⟩
      (mergeAfterMerge.nodes.drop 5) rfl (by decide) (by decide)
  · exact (columns_centred hids (some "s")).2 ⟨"b", .task, none⟩ (by decide) (by decide)

end ProcessChart.ProcessGraph
