import ProcessChart.Proofs.LevelLaw
import Mathlib.Data.List.Perm.Subperm

/-!
Which rows a picture has. Whatever the flows of a process are, only the start and
the nodes that no flow enters lie on the first row, and every other node lies
right below some node. So no row between the first and the last one is empty, and
there are no more rows than different nodes.
-/

namespace ProcessChart.ProcessGraph

variable {p : ProcessGraph} {start? : Option String} {v : String}

theorem levelOf_eq_zero_iff (hnode : v ∈ p.nodeIds) :
    p.levelOf start? v = 0 ↔ some v = start? ∨ p.predecessors v = [] := by
  by_cases hv : some v = start?
  · subst hv
    simp [levelOf_start]
  · rw [or_iff_right hv]
    refine ⟨fun hzero => ?_, levelOf_eq_zero hnode hv⟩
    by_contra hentered
    obtain ⟨u, -, hlevel⟩ := exists_countedLevel_eq hnode hv hentered
    omega

/-- The level of a node below the first row is one more than that of some node,
because a predecessor visited later counts like the start. -/
theorem exists_levelOf_eq {k : Nat} (hnode : v ∈ p.nodeIds)
    (hlevel : p.levelOf p.startId? v = k + 1) : ∃ u ∈ p.nodeIds, p.levelOf p.startId? u = k := by
  have hbelow : ¬ (some v = p.startId? ∨ p.predecessors v = []) := by
    rw [← levelOf_eq_zero_iff hnode, hlevel]
    exact Nat.succ_ne_zero k
  obtain ⟨hv, hentered⟩ := not_or.mp hbelow
  obtain ⟨u, -, hcounted⟩ := exists_countedLevel_eq hnode hv hentered
  rw [hlevel, countedLevel] at hcounted
  by_cases hbefore : [u, v].Sublist (p.visitOrder p.startId?)
  · rw [if_pos hbefore] at hcounted
    exact ⟨u, mem_nodeIds_of_before hbefore, (Nat.succ.inj hcounted).symm⟩
  · rw [if_neg hbefore] at hcounted
    obtain ⟨n, hn, -⟩ := List.mem_map.mp hnode
    obtain ⟨s, hs⟩ := exists_startId? (List.ne_nil_of_mem hn)
    obtain rfl : k = 0 := Nat.succ.inj hcounted
    have hstart : p.startId? = some s := hs
    refine ⟨s, mem_nodeIds_of_mem_startId? hs, ?_⟩
    rw [hstart, levelOf_start]

theorem exists_levelOf_eq_of_le {k : Nat} (hnode : v ∈ p.nodeIds)
    (hle : k ≤ p.levelOf p.startId? v) : ∃ u ∈ p.nodeIds, p.levelOf p.startId? u = k := by
  induction hlevel : p.levelOf p.startId? v generalizing v with
  | zero => exact ⟨v, hnode, by omega⟩
  | succ m ih =>
    by_cases hk : k = m + 1
    · exact ⟨v, hnode, by omega⟩
    · obtain ⟨u, hu, hulevel⟩ := exists_levelOf_eq hnode hlevel
      exact ih hu (by omega) hulevel

/-- All levels down to that of a node are levels of different nodes. -/
theorem levelOf_lt_length (hnode : v ∈ p.nodeIds) :
    p.levelOf p.startId? v < p.nodeIds.eraseDups.length := by
  have hsub : List.range (p.levelOf p.startId? v + 1) ⊆
      p.nodeIds.eraseDups.map (p.levelOf p.startId?) := by
    intro k hk
    obtain ⟨u, hu, hlevel⟩ :=
      exists_levelOf_eq_of_le hnode (Nat.le_of_lt_succ (List.mem_range.mp hk))
    exact List.mem_map.mpr ⟨u, List.mem_eraseDups.mpr hu, hlevel⟩
  have hle := (List.nodup_range.subperm hsub).length_le
  rw [List.length_range, List.length_map] at hle
  exact hle

/-- Every node of a process with nodes has a level, and exactly the start and the
nodes that no flow enters have level zero. The levels in use are the numbers from
zero to the greatest one, which is less than the number of different ids. -/
theorem levels_without_gaps (p : ProcessGraph) (h : p.nodes ≠ []) :
    (∃ s ∈ p.startId?, s ∈ p.nodeIds) ∧
    (∀ id ∈ p.nodeIds, ∃ level, (p.levels p.startId?).get? id = some level ∧
      (level = 0 ↔ some id = p.startId? ∨ p.flowsInto id = [])) ∧
    ∃ top < p.nodeIds.eraseDups.length, ∀ level,
      (∃ id ∈ p.nodeIds, (p.levels p.startId?).get? id = some level) ↔ level ≤ top := by
  obtain ⟨s, hs⟩ := exists_startId? h
  have hnode : s ∈ p.nodeIds := mem_nodeIds_of_mem_startId? hs
  refine ⟨⟨s, hs, hnode⟩, ?_, ?_⟩
  · intro id hid
    refine ⟨_, get?_levels_eq_some hid, ?_⟩
    rw [levelOf_eq_zero_iff hid, predecessors, List.map_eq_nil_iff]
  · obtain ⟨top, htop⟩ : ∃ top, (p.nodeIds.map (p.levelOf p.startId?)).max? = some top :=
      Option.isSome_iff_exists.mp (List.isSome_max?_of_mem (List.mem_map_of_mem hnode))
    obtain ⟨hmem, hgreatest⟩ := List.max?_eq_some_iff.mp htop
    obtain ⟨v, hv, rfl⟩ := List.mem_map.mp hmem
    refine ⟨_, levelOf_lt_length hv, fun level => ?_⟩
    constructor
    · rintro ⟨id, hid, hlevel⟩
      obtain rfl : p.levelOf p.startId? id = level := by
        rwa [get?_levels_eq_some hid, Option.some_inj] at hlevel
      exact hgreatest _ (List.mem_map_of_mem hid)
    · intro hle
      obtain ⟨u, hu, rfl⟩ := exists_levelOf_eq_of_le hv hle
      exact ⟨u, hu, get?_levels_eq_some hu⟩

/-- A loop, a circle and flows that lead into the start and to and from ids without
nodes. One id stands for two nodes, and one node has no flows at all. -/
def tangle : ProcessGraph where
  id := "P"
  name := none
  nodes := [⟨"a", .task, none⟩, ⟨"s", .startEvent, none⟩, ⟨"b", .task, none⟩, ⟨"a", .endEvent, none⟩,
    ⟨"alone", .task, none⟩]
  flows := [⟨"f1", "a", "a"⟩, ⟨"f2", "a", "s"⟩, ⟨"f3", "a", "b"⟩, ⟨"f4", "b", "a"⟩,
    ⟨"f5", "ghost", "b"⟩, ⟨"f6", "b", "nowhere"⟩]

/-- Rows zero to two are in use, by four different nodes. -/
theorem levels_tangle :
    (tangle.nodes ≠ [] ∧ (tangle.levels tangle.startId?).get? "b" = some 2) ∧
    (∃ level, (tangle.levels tangle.startId?).get? "alone" = some level ∧
      (level = 0 ↔ some "alone" = tangle.startId? ∨ tangle.flowsInto "alone" = [])) ∧
    ∃ top < 4, ∀ level,
      (∃ id ∈ tangle.nodeIds, (tangle.levels tangle.startId?).get? id = some level) ↔
        level ≤ top := by
  have hnodes : tangle.nodes ≠ [] := by decide
  have hlevel : (tangle.levels tangle.startId?).get? "b" = some 2 := by decide +kernel
  have hlength : tangle.nodeIds.eraseDups.length = 4 := by decide
  obtain ⟨-, hlevels, hrows⟩ := levels_without_gaps tangle hnodes
  rw [hlength] at hrows
  exact ⟨⟨hnodes, hlevel⟩, hlevels "alone" (by decide), hrows⟩

end ProcessChart.ProcessGraph
