import ProcessChart.Proofs.LevelLaw
import ProcessChart.Proofs.Paths
import ProcessChart.Proofs.Defects

/-!
Levels and longest paths. No level of an acyclic process exceeds the depth of
its node, and the levels are the depths exactly when one of the deepest
predecessors of every node is visited before the node. That is so in particular
when every node can be reached from the start, because then no node is left over.
-/

namespace ProcessChart.ProcessGraph

variable {p : ProcessGraph} {start? : Option String} {v : String} {d : Nat}

/-- Every node is visited after one of its deepest predecessors, unless the
predecessors all are sources. -/
def Timely (p : ProcessGraph) (start? : Option String) : Prop :=
  ∀ v ∈ p.nodeIds, some v ≠ start? → ∀ d, p.Depth v (d + 1) →
    ∃ u ∈ p.predecessors v, p.Depth u d ∧ ([u, v].Sublist (p.visitOrder start?) ∨ d = 0)

theorem levelOf_le_depth (hacyc : p.Acyclic) (hnode : v ∈ p.nodeIds) (hd : p.Depth v d) :
    p.levelOf start? v ≤ d := by
  induction v using hacyc.induction generalizing d with
  | step v ih =>
    by_cases hv : some v = start?
    · subst hv
      rw [levelOf_start]
      exact Nat.zero_le d
    by_cases hnil : p.predecessors v = []
    · rw [levelOf_eq_zero hnode hv hnil]
      exact Nat.zero_le d
    obtain ⟨u, hu, hlevel⟩ := exists_countedLevel_eq hnode hv hnil
    obtain ⟨m, hm⟩ := hacyc.exists_depth u
    have hlt := hd.predecessor_lt hu hm
    rw [hlevel, countedLevel]
    by_cases hbefore : [u, v].Sublist (p.visitOrder start?)
    · have hle := ih u hu (mem_nodeIds_of_before hbefore) hm
      rw [if_pos hbefore]
      omega
    · rw [if_neg hbefore]
      omega

theorem levelOf_eq_depth (hacyc : p.Acyclic) (hstart : ∀ s ∈ start?, p.predecessors s = [])
    (htimely : p.Timely start?) (hnode : v ∈ p.nodeIds) (hd : p.Depth v d) :
    p.levelOf start? v = d := by
  refine Nat.le_antisymm (levelOf_le_depth hacyc hnode hd) ?_
  induction v using hacyc.induction generalizing d with
  | step v ih =>
    by_cases hv : some v = start?
    · rw [hd.eq_zero_iff.mpr (hstart v hv.symm)]
      exact Nat.zero_le _
    cases d with
    | zero => exact Nat.zero_le _
    | succ d =>
      obtain ⟨u, hu, hdepth, htime⟩ := htimely v hnode hv d hd
      have hlt := countedLevel_lt_levelOf hnode hv hu
      rcases htime with hbefore | hzero
      · have hle := ih u hu (mem_nodeIds_of_before hbefore) hdepth
        rw [countedLevel, if_pos hbefore] at hlt
        omega
      · omega

/-- Levels that grow along every flow are at least as large as the depths. -/
theorem depth_le_levelOf
    (hgrow : ∀ f ∈ p.flows, p.levelOf start? f.source < p.levelOf start? f.target)
    (hd : p.Depth v d) : d ≤ p.levelOf start? v := by
  obtain ⟨a, hpath⟩ := hd.1
  clear hd
  induction hpath with
  | nil => exact Nat.zero_le _
  | tail f hf _ ih =>
    have hlt := hgrow f hf
    omega

/-- Depths grow along every flow, and so do levels that are depths. -/
theorem levelOf_lt_of_timely (hacyc : p.Acyclic) (hstart : ∀ s ∈ start?, p.predecessors s = [])
    (htimely : p.Timely start?) {f : Flow} (hf : f ∈ p.flows)
    (hsource : f.source ∈ p.nodeIds) (htarget : f.target ∈ p.nodeIds) :
    p.levelOf start? f.source < p.levelOf start? f.target := by
  obtain ⟨m, hm⟩ := hacyc.exists_depth f.source
  obtain ⟨n, hn⟩ := hacyc.exists_depth f.target
  have hlt := hn.predecessor_lt (mem_predecessors.mpr ⟨f, hf, rfl, rfl⟩) hm
  rw [levelOf_eq_depth hacyc hstart htimely hsource hm,
    levelOf_eq_depth hacyc hstart htimely htarget hn]
  exact hlt

section Reachable

variable (hends : ∀ f ∈ p.flows, p.isDangling f = false) (hacyc : p.Acyclic)
  (hreach : ∀ id ∈ p.nodeIds, ∃ s ∈ p.startId?, ∃ n, p.Path s id n)

include hends in
theorem predecessor_mem_nodeIds {u : String} (hu : u ∈ p.predecessors v) : u ∈ p.nodeIds := by
  obtain ⟨f, hf, -, rfl⟩ := mem_predecessors.mp hu
  exact (isDangling_eq_false_iff.mp (hends f hf)).1

include hends hacyc hreach

theorem start_unentered : ∀ s ∈ p.startId?, p.predecessors s = [] := by
  intro s hs
  rw [List.eq_nil_iff_forall_not_mem]
  intro u hu
  obtain ⟨s', hs', n, hpath⟩ := hreach u (predecessor_mem_nodeIds hends hu)
  obtain rfl : s = s' := Option.mem_unique hs hs'
  have hzero := hacyc s (n + 1) (hpath.snoc hu)
  omega

theorem mem_releasedFrom_of_reachable (hnode : v ∈ p.nodeIds) :
    v ∈ p.releasedFrom p.startId? := by
  induction v using hacyc.induction with
  | step v ih =>
    apply mem_releasedFrom_of_released hnode
    by_cases hnil : p.predecessors v = []
    · obtain ⟨s, hs, n, hpath⟩ := hreach v hnode
      cases n with
      | zero =>
        obtain rfl := path_zero_iff.mp hpath
        exact Or.inl hs.symm
      | succ n =>
        obtain ⟨u, hu, -⟩ := path_succ_iff.mp hpath
        simp [hnil] at hu
    · exact Or.inr ⟨hnil, fun u hu => ih u hu (predecessor_mem_nodeIds hends hu)⟩

/-- With no node left over, every predecessor is visited in time. -/
theorem timely_of_reachable : p.Timely p.startId? := by
  intro v hnode hv d hd
  obtain ⟨u, hu, hdepth⟩ := hd.exists_deepest
  refine ⟨u, hu, hdepth, Or.inl ?_⟩
  have hmem := mem_releasedFrom_of_reachable hends hacyc hreach hnode
  rcases start_or_follows_of_released hmem with hs | ⟨-, hall⟩
  · exact absurd hs hv
  · exact (hall u hu).trans (List.sublist_append_left _ _)

omit hacyc hreach in
theorem path_begins_at_node {a : String} {n : Nat} (hpath : p.Path a v n)
    (hnode : v ∈ p.nodeIds) : a ∈ p.nodeIds := by
  induction hpath with
  | nil => exact hnode
  | tail f hf _ ih => exact ih (isDangling_eq_false_iff.mp (hends f hf)).1

omit hacyc in
/-- Where the start reaches every node, a deepest path can be taken from the start. -/
theorem isGreatest_path_of_depth {s : String} (hs : s ∈ p.startId?) (hnode : v ∈ p.nodeIds)
    (hd : p.Depth v d) : IsGreatest {n | p.Path s v n} d := by
  obtain ⟨a, hpath⟩ := hd.1
  obtain ⟨s', hs', m, hlead⟩ := hreach a (path_begins_at_node hends hpath hnode)
  obtain rfl : s = s' := Option.mem_unique hs hs'
  have hle := hd.le_of_path (hlead.trans hpath)
  obtain rfl : m = 0 := by omega
  obtain rfl := path_zero_iff.mp hlead
  exact ⟨hpath, fun n hn => hd.le_of_path hn⟩

end Reachable

/-- In an acyclic process whose nodes can all be reached from the start, the
level of a node is the number of flows on the longest path from the start to it. -/
theorem levels_eq_longest_path (p : ProcessGraph)
    (hends : ∀ f ∈ p.flows, p.isDangling f = false) (hacyc : p.Acyclic)
    (hreach : ∀ id ∈ p.nodeIds, ∃ s ∈ p.startId?, ∃ n, p.Path s id n) :
    (∀ id ∈ p.nodeIds, ∃ s ∈ p.startId?, ∃ level,
      (p.levels p.startId?).get? id = some level ∧ IsGreatest {n | p.Path s id n} level) ∧
    ∀ f ∈ p.flows, ∃ upper lower,
      (p.levels p.startId?).get? f.source = some upper ∧
      (p.levels p.startId?).get? f.target = some lower ∧ upper + 1 ≤ lower := by
  have hstart := start_unentered hends hacyc hreach
  have htimely := timely_of_reachable hends hacyc hreach
  constructor
  · intro id hnode
    obtain ⟨s, hs, -⟩ := hreach id hnode
    obtain ⟨d, hd⟩ := hacyc.exists_depth id
    have hlevel := levelOf_eq_depth hacyc hstart htimely hnode hd
    exact ⟨s, hs, d, hlevel ▸ get?_levels_eq_some hnode,
      isGreatest_path_of_depth hends hreach hs hnode hd⟩
  · intro f hf
    obtain ⟨hsource, htarget⟩ := isDangling_eq_false_iff.mp (hends f hf)
    exact ⟨_, _, get?_levels_eq_some hsource, get?_levels_eq_some htarget,
      levelOf_lt_of_timely hacyc hstart htimely hf hsource htarget⟩

/-- Two branches of different length meet, the longer one through parallel flows. -/
def detour : ProcessGraph where
  id := "P"
  name := none
  nodes := [⟨"e", .endEvent, none⟩, ⟨"join", .exclusiveGateway, none⟩, ⟨"a", .task, none⟩,
    ⟨"s", .startEvent, none⟩]
  flows := [⟨"f1", "s", "join"⟩, ⟨"f2", "s", "a"⟩, ⟨"f3", "a", "join"⟩, ⟨"f4", "a", "join"⟩,
    ⟨"f5", "join", "e"⟩]

theorem acyclic_detour : detour.Acyclic :=
  acyclic_of_rank (fun id => if id = "s" then 0 else if id = "a" then 1 else
    if id = "join" then 2 else 3) (by decide)

theorem reachable_detour :
    ∀ id ∈ detour.nodeIds, ∃ s ∈ detour.startId?, ∃ n, detour.Path s id n := by
  have hs : "s" ∈ detour.startId? := by decide
  have hjoin : detour.Path "s" "join" 1 := Path.nil.snoc (by decide)
  have ha : detour.Path "s" "a" 1 := Path.nil.snoc (by decide)
  have he : detour.Path "s" "e" 2 := hjoin.snoc (by decide)
  intro id hid
  have hcases : id = "e" ∨ id = "join" ∨ id = "a" ∨ id = "s" := by
    simpa [detour, nodeIds] using hid
  rcases hcases with rfl | rfl | rfl | rfl
  · exact ⟨"s", hs, 2, he⟩
  · exact ⟨"s", hs, 1, hjoin⟩
  · exact ⟨"s", hs, 1, ha⟩
  · exact ⟨"s", hs, 0, .nil⟩

theorem longest_path_detour :
    (∀ f ∈ detour.flows, detour.isDangling f = false) ∧ detour.Acyclic ∧
      (∀ id ∈ detour.nodeIds, ∃ s ∈ detour.startId?, ∃ n, detour.Path s id n) ∧
      ∃ s ∈ detour.startId?, ∃ level,
        (detour.levels detour.startId?).get? "join" = some level ∧
          IsGreatest {n | detour.Path s "join" n} level := by
  have hends : ∀ f ∈ detour.flows, detour.isDangling f = false := by decide
  have hlevels := levels_eq_longest_path detour hends acyclic_detour reachable_detour
  exact ⟨hends, acyclic_detour, reachable_detour, hlevels.1 "join" (by decide)⟩

end ProcessChart.ProcessGraph
