import ProcessChart.Proofs.Visits
import Mathlib.Data.List.Induction

/-!
The equation that every level satisfies. A node other than the start lies one
below the deepest of its predecessors, where a predecessor that is visited
later counts as level zero; the start lies at level zero.
-/

namespace ProcessChart.ProcessGraph

variable {p : ProcessGraph} {start? : Option String}

/-- The level with which a node is drawn. -/
def levelOf (p : ProcessGraph) (start? : Option String) (id : String) : Nat :=
  ((p.levels start?).get? id).getD 0

/-- The level that `v` counts its predecessor `u` with. -/
def countedLevel (p : ProcessGraph) (start? : Option String) (u v : String) : Nat :=
  if [u, v].Sublist (p.visitOrder start?) then p.levelOf start? u else 0

/-- The levels known once the ids of a list have been visited in turn. -/
def levelsAlong (p : ProcessGraph) (start? : Option String) (order : List String) : Table Nat :=
  order.foldl
    (fun t id => if some id = start? then t else t.insert id (levelBelow t (p.predecessors id)))
    ⟨start?.toList.map (·, 0)⟩

theorem levels_eq_levelsAlong : p.levels start? = p.levelsAlong start? (p.visitOrder start?) := rfl

theorem levelsAlong_concat (order : List String) (id : String) :
    p.levelsAlong start? (order ++ [id]) =
      if some id = start? then p.levelsAlong start? order
      else (p.levelsAlong start? order).insert id
        (levelBelow (p.levelsAlong start? order) (p.predecessors id)) := by
  simp [levelsAlong, List.foldl_append]

theorem get?_levelsAlong_start {s : String} (order : List String) :
    (p.levelsAlong (some s) order).get? s = some 0 := by
  induction order using List.reverseRecOn with
  | nil => simp [levelsAlong, Table.get?]
  | append_singleton order id ih =>
    rw [levelsAlong_concat]
    by_cases h : some id = some s
    · rw [if_pos h, ih]
    · have hne : s ≠ id := fun heq => h (congrArg some heq.symm)
      rw [if_neg h, Table.get?_insert, if_neg hne, ih]

/-- A visit changes no other level. -/
theorem get?_levelsAlong_append {id : String} (before after : List String) (h : id ∉ after) :
    (p.levelsAlong start? (before ++ after)).get? id =
      (p.levelsAlong start? before).get? id := by
  induction after using List.reverseRecOn with
  | nil => rw [List.append_nil]
  | append_singleton after x ih =>
    obtain ⟨hafter, hx⟩ : id ∉ after ∧ id ≠ x := by simpa using h
    rw [← List.append_assoc, levelsAlong_concat]
    by_cases hs : some x = start?
    · rw [if_pos hs, ih hafter]
    · rw [if_neg hs, Table.get?_insert, if_neg hx, ih hafter]

theorem get?_levelsAlong_of_not_mem {id : String} {order : List String} (h : id ∉ order)
    (hstart : some id ≠ start?) : (p.levelsAlong start? order).get? id = none := by
  have hnil : (p.levelsAlong start? []).get? id = none := by
    cases start? with
    | none => rfl
    | some s =>
      have hne : id ≠ s := fun heq => hstart (congrArg some heq)
      simp [levelsAlong, Table.get?, Table.lookup_cons_ite, hne]
  have hframe : (p.levelsAlong start? ([] ++ order)).get? id = (p.levelsAlong start? []).get? id :=
    get?_levelsAlong_append [] order h
  rw [← hnil, ← hframe, List.nil_append]

theorem levelOf_start {s : String} : p.levelOf (some s) s = 0 := by
  rw [levelOf, levels_eq_levelsAlong, get?_levelsAlong_start]
  rfl

theorem le_foldl_max {values : List Nat} {a : Nat} (h : a ∈ values) :
    a ≤ values.foldl max 0 := by
  rw [List.foldl_max, Nat.zero_max]
  exact List.le_max?_getD_of_mem h

theorem foldl_max_eq_zero_or_mem (values : List Nat) :
    values.foldl max 0 = 0 ∨ values.foldl max 0 ∈ values := by
  rw [List.foldl_max, Nat.zero_max]
  cases h : values.max? with
  | none => exact Or.inl rfl
  | some m => exact Or.inr (List.max?_mem h)

section Node

variable {u v : String} (hnode : v ∈ p.nodeIds) (hv : some v ≠ start?)

include hnode hv

/-- The level equation. -/
theorem get?_levels :
    (p.levels start?).get? v =
      some (((p.predecessors v).map fun u => p.countedLevel start? u v + 1).foldl max 0) := by
  obtain ⟨before, after, hsplit, horder⟩ := exists_split_visitOrder start? hnode
  have hnodup : (before ++ v :: after).Nodup := hsplit ▸ nodup_visitOrder
  obtain ⟨-, htail, hdisjoint⟩ := List.nodup_append'.mp hnodup
  have hafter : v ∉ after := (List.nodup_cons.mp htail).1
  have hentry : (p.levels start?).get? v =
      some (levelBelow (p.levelsAlong start? before) (p.predecessors v)) := by
    rw [levels_eq_levelsAlong, hsplit, ← List.singleton_append, ← List.append_assoc,
      get?_levelsAlong_append _ _ hafter, levelsAlong_concat, if_neg hv, Table.get?_insert,
      if_pos rfl]
  -- A predecessor visited before has its final level, any other one none but that of the start.
  have hknown : ∀ u, ((p.levelsAlong start? before).get? u).getD 0 =
      p.countedLevel start? u v := by
    intro u
    rw [countedLevel]
    by_cases hu : u ∈ before
    · rw [if_pos ((horder u).mpr hu), levelOf, levels_eq_levelsAlong, hsplit,
        get?_levelsAlong_append before _ (hdisjoint hu)]
    · rw [if_neg (mt (horder u).mp hu)]
      by_cases hs : some u = start?
      · subst hs
        rw [get?_levelsAlong_start]
        rfl
      · rw [get?_levelsAlong_of_not_mem hu hs]
        rfl
  rw [hentry, levelBelow]
  simp only [hknown]

theorem levelOf_eq :
    p.levelOf start? v =
      ((p.predecessors v).map fun u => p.countedLevel start? u v + 1).foldl max 0 := by
  rw [levelOf, get?_levels hnode hv, Option.getD_some]

theorem countedLevel_lt_levelOf (hu : u ∈ p.predecessors v) :
    p.countedLevel start? u v < p.levelOf start? v := by
  rw [levelOf_eq hnode hv]
  apply le_foldl_max
  exact List.mem_map.mpr ⟨u, hu, rfl⟩

theorem levelOf_lt_of_before (hu : u ∈ p.predecessors v)
    (hbefore : [u, v].Sublist (p.visitOrder start?)) :
    p.levelOf start? u < p.levelOf start? v := by
  have hlt := countedLevel_lt_levelOf hnode hv hu
  rwa [countedLevel, if_pos hbefore] at hlt

theorem levelOf_eq_zero (hnil : p.predecessors v = []) : p.levelOf start? v = 0 := by
  rw [levelOf_eq hnode hv, hnil]
  rfl

/-- Some predecessor is counted with exactly one less. -/
theorem exists_countedLevel_eq (hentered : p.predecessors v ≠ []) :
    ∃ u ∈ p.predecessors v, p.levelOf start? v = p.countedLevel start? u v + 1 := by
  obtain ⟨w, hw⟩ := List.exists_mem_of_ne_nil _ hentered
  have hlt := countedLevel_lt_levelOf hnode hv hw
  have heq := levelOf_eq hnode hv
  rcases foldl_max_eq_zero_or_mem ((p.predecessors v).map fun u => p.countedLevel start? u v + 1)
    with hzero | hmem
  · omega
  · rw [← heq] at hmem
    obtain ⟨u, hu, hlevel⟩ := List.mem_map.mp hmem
    exact ⟨u, hu, hlevel.symm⟩

end Node

theorem get?_levels_eq_some {v : String} (hnode : v ∈ p.nodeIds) :
    (p.levels start?).get? v = some (p.levelOf start? v) := by
  by_cases hv : some v = start?
  · subst hv
    rw [levelOf_start, levels_eq_levelsAlong, get?_levelsAlong_start]
  · rw [levelOf_eq hnode hv, get?_levels hnode hv]

end ProcessChart.ProcessGraph
