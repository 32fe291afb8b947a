import ProcessChart.Proofs.Admission
import ProcessChart.Proofs.LongestPath

/-!
When flows run downwards. In an acyclic process with several sources a node may
be visited before its predecessors, and the first start event stays at level
zero whatever flows enter it. The layout of an admissible acyclic process has
every flow going down exactly when the start is not entered and every node has
a deepest predecessor that is either reached from the start alone or declared
before the node.
-/

namespace ProcessChart

/-- The flow goes from a node of the diagram to a node on a lower row. -/
def Diagram.RunsDown (d : Diagram) (f : Flow) : Prop :=
  ∃ a b, d.node? f.source = some a ∧ d.node? f.target = some b ∧ a.level < b.level

namespace ProcessGraph

variable {p : ProcessGraph} {u v : String}

/-- No source but the start leads to the id. -/
def FromStartOnly (p : ProcessGraph) (id : String) : Prop :=
  ∀ a n, p.Path a id n → p.predecessors a = [] → some a = p.startId?

/-- The start is not entered, and every node that has a predecessor which is no
source has a deepest predecessor reached from the start alone or declared
before it. -/
structure DeclaredInTime (p : ProcessGraph) : Prop where
  start_unentered : ∀ s ∈ p.startId?, p.predecessors s = []
  deepest_in_time : ∀ v ∈ p.nodeIds, ∀ d, p.Depth v (d + 2) →
    ∃ u ∈ p.predecessors v, p.Depth u (d + 1) ∧
      (p.FromStartOnly u ∨ [u, v].Sublist p.nodeIds)

/-- Leftovers keep the order of the declaration. -/
theorem leftovers_sublist_iff {start? : Option String} (hnodup : p.nodeIds.Nodup)
    (hu : u ∉ p.releasedFrom start?) (hv : v ∉ p.releasedFrom start?) :
    [u, v].Sublist (p.leftovers start?) ↔ [u, v].Sublist p.nodeIds := by
  let left : String → Bool := fun id => !(p.releasedFrom start?).contains id
  have hleftovers : p.leftovers start? = p.nodeIds.filter left := eraseDups_of_nodup (hnodup.filter _)
  have hpair : [u, v].filter left = [u, v] := by simp [left, hu, hv]
  rw [hleftovers]
  refine ⟨fun h => h.trans List.filter_sublist, fun h => ?_⟩
  rw [← hpair]
  exact h.filter left

/-- A predecessor is visited before a node when it is released from the start,
and otherwise when it is declared before the node. -/
theorem before_iff (hnodup : p.nodeIds.Nodup) {start? : Option String} (hnode : v ∈ p.nodeIds)
    (hv : some v ≠ start?) (hu : u ∈ p.predecessors v) :
    [u, v].Sublist (p.visitOrder start?) ↔
      u ∈ p.releasedFrom start? ∨ [u, v].Sublist p.nodeIds := by
  rw [before_iff_or hnode hv hu]
  by_cases hmem : u ∈ p.releasedFrom start?
  · exact iff_of_true (Or.inl hmem) (Or.inl hmem)
  · have hleft : v ∉ p.releasedFrom start? := by
      intro hreleased
      rcases start_or_follows_of_released hreleased with hs | ⟨-, hall⟩
      · exact hv hs
      · exact hmem ((hall u hu).subset (by simp))
    rw [leftovers_sublist_iff hnodup hmem hleft]

theorem FromStartOnly.predecessor (h : p.FromStartOnly v) (hu : u ∈ p.predecessors v) :
    p.FromStartOnly u :=
  fun a n hpath ha => h a (n + 1) (hpath.snoc hu) ha

theorem fromStartOnly_of_released (hacyc : p.Acyclic)
    (hstart : ∀ s ∈ p.startId?, p.predecessors s = []) (hmem : v ∈ p.releasedFrom p.startId?) :
    p.FromStartOnly v := by
  induction v using hacyc.induction with
  | step v ih =>
    intro a n hpath ha
    rcases start_or_follows_of_released hmem with hs | ⟨hentered, hall⟩
    · cases n with
      | zero => rw [← path_zero_iff.mp hpath, hs]
      | succ n =>
        obtain ⟨u, hu, -⟩ := path_succ_iff.mp hpath
        simp [hstart v hs.symm] at hu
    · cases n with
      | zero => exact absurd (path_zero_iff.mp hpath ▸ ha) hentered
      | succ n =>
        obtain ⟨u, hu, hshort⟩ := path_succ_iff.mp hpath
        have hearlier : u ∈ p.releasedFrom p.startId? := (hall u hu).subset (by simp)
        exact ih u hu hearlier a n hshort ha

theorem released_of_fromStartOnly (hacyc : p.Acyclic)
    (hends : ∀ f ∈ p.flows, p.isDangling f = false) (hnode : v ∈ p.nodeIds)
    (h : p.FromStartOnly v) : v ∈ p.releasedFrom p.startId? := by
  induction v using hacyc.induction with
  | step v ih =>
    apply mem_releasedFrom_of_released hnode
    by_cases hnil : p.predecessors v = []
    · exact Or.inl (h v 0 .nil hnil)
    · exact Or.inr ⟨hnil, fun u hu =>
        ih u hu (predecessor_mem_nodeIds hends hu) (h.predecessor hu)⟩

/-- In time for the visit is in time in the declaration. -/
theorem timely_iff_deepest_in_time (hacyc : p.Acyclic)
    (hends : ∀ f ∈ p.flows, p.isDangling f = false) (hnodup : p.nodeIds.Nodup)
    (hstart : ∀ s ∈ p.startId?, p.predecessors s = []) :
    p.Timely p.startId? ↔
      ∀ v ∈ p.nodeIds, ∀ d, p.Depth v (d + 2) →
        ∃ u ∈ p.predecessors v, p.Depth u (d + 1) ∧
          (p.FromStartOnly u ∨ [u, v].Sublist p.nodeIds) := by
  have hreleased : ∀ u ∈ p.nodeIds, u ∈ p.releasedFrom p.startId? ↔ p.FromStartOnly u :=
    fun u hnode => ⟨fromStartOnly_of_released hacyc hstart,
      released_of_fromStartOnly hacyc hends hnode⟩
  have hbefore : ∀ v ∈ p.nodeIds, some v ≠ p.startId? → ∀ u ∈ p.predecessors v,
      ([u, v].Sublist (p.visitOrder p.startId?) ↔
        p.FromStartOnly u ∨ [u, v].Sublist p.nodeIds) := by
    intro v hnode hv u hu
    rw [before_iff hnodup hnode hv hu, hreleased u (predecessor_mem_nodeIds hends hu)]
  constructor
  · intro htimely v hnode d hd
    have hv : some v ≠ p.startId? := by
      intro hs
      have hzero := hd.eq_zero_iff.mpr (hstart v hs.symm)
      omega
    obtain ⟨u, hu, hdepth, htime⟩ := htimely v hnode hv (d + 1) hd
    refine ⟨u, hu, hdepth, (hbefore v hnode hv u hu).mp ?_⟩
    rcases htime with htime | hzero
    · exact htime
    · omega
  · intro h v hnode hv d hd
    cases d with
    | zero =>
      obtain ⟨u, hu, hdepth⟩ := hd.exists_deepest
      exact ⟨u, hu, hdepth, Or.inr rfl⟩
    | succ d =>
      obtain ⟨u, hu, hdepth, htime⟩ := h v hnode d hd
      exact ⟨u, hu, hdepth, Or.inl ((hbefore v hnode hv u hu).mpr htime)⟩

/-- Levels that grow along every flow are depths, and then the predecessor that
gave a node its level was visited before it. -/
theorem timely_of_grow (hacyc : p.Acyclic) {start? : Option String}
    (hgrow : ∀ f ∈ p.flows, p.levelOf start? f.source < p.levelOf start? f.target) :
    p.Timely start? := by
  have hdepth : ∀ v ∈ p.nodeIds, ∀ d, p.Depth v d → p.levelOf start? v = d := fun v hnode d hd =>
    Nat.le_antisymm (levelOf_le_depth hacyc hnode hd) (depth_le_levelOf hgrow hd)
  intro v hnode hv d hd
  have hentered : p.predecessors v ≠ [] := mt hd.eq_zero_iff.mpr (Nat.succ_ne_zero d)
  obtain ⟨u, hu, hlevel⟩ := exists_countedLevel_eq hnode hv hentered
  rw [hdepth v hnode _ hd, countedLevel] at hlevel
  by_cases hbefore : [u, v].Sublist (p.visitOrder start?)
  · rw [if_pos hbefore] at hlevel
    obtain ⟨m, hm⟩ := hacyc.exists_depth u
    have hlevelu := hdepth u (mem_nodeIds_of_before hbefore) m hm
    obtain rfl : m = d := by omega
    exact ⟨u, hu, hm, Or.inl hbefore⟩
  · rw [if_neg hbefore] at hlevel
    obtain ⟨w, hw, hdeepest⟩ := hd.exists_deepest
    exact ⟨w, hw, hdeepest, Or.inr (by omega)⟩

theorem start_unentered_of_grow {start? : Option String}
    (hgrow : ∀ f ∈ p.flows, p.levelOf start? f.source < p.levelOf start? f.target) :
    ∀ s ∈ start?, p.predecessors s = [] := by
  intro s hs
  obtain rfl : start? = some s := hs
  rw [List.eq_nil_iff_forall_not_mem]
  intro u hu
  obtain ⟨f, hf, rfl, -⟩ := mem_predecessors.mp hu
  have hlt := hgrow f hf
  rw [levelOf_start] at hlt
  omega

theorem levels_grow_iff (hacyc : p.Acyclic) (hends : ∀ f ∈ p.flows, p.isDangling f = false)
    (hnodup : p.nodeIds.Nodup) :
    (∀ f ∈ p.flows, p.levelOf p.startId? f.source < p.levelOf p.startId? f.target) ↔
      p.DeclaredInTime := by
  constructor
  · intro hgrow
    have hstart := start_unentered_of_grow hgrow
    have htimely := timely_of_grow hacyc hgrow
    exact ⟨hstart, (timely_iff_deepest_in_time hacyc hends hnodup hstart).mp htimely⟩
  · rintro ⟨hstart, hdeepest⟩ f hf
    have htimely := (timely_iff_deepest_in_time hacyc hends hnodup hstart).mpr hdeepest
    obtain ⟨hsource, htarget⟩ := isDangling_eq_false_iff.mp (hends f hf)
    exact levelOf_lt_of_timely hacyc hstart htimely hf hsource htarget

/-- Whatever the other flows do, a flow into a node other than the start goes
down when its source is a source of the process, reached from the start alone
or declared before its target. -/
theorem levelOf_lt_of_in_time (hacyc : p.Acyclic)
    (hends : ∀ f ∈ p.flows, p.isDangling f = false) (hnodup : p.nodeIds.Nodup) {f : Flow}
    (hf : f ∈ p.flows) (hv : some f.target ≠ p.startId?)
    (htime : p.predecessors f.source = [] ∨ p.FromStartOnly f.source ∨
      [f.source, f.target].Sublist p.nodeIds) :
    p.levelOf p.startId? f.source < p.levelOf p.startId? f.target := by
  obtain ⟨hsource, htarget⟩ := isDangling_eq_false_iff.mp (hends f hf)
  have hu : f.source ∈ p.predecessors f.target := mem_predecessors.mpr ⟨f, hf, rfl, rfl⟩
  rcases htime with hnil | htime
  · have hlt := countedLevel_lt_levelOf htarget hv hu
    have hzero : p.levelOf p.startId? f.source = 0 := by
      by_cases hs : some f.source = p.startId?
      · rw [← hs, levelOf_start]
      · exact levelOf_eq_zero hsource hs hnil
    omega
  · refine levelOf_lt_of_before htarget hv hu ((before_iff hnodup htarget hv hu).mpr ?_)
    exact htime.imp_left (released_of_fromStartOnly hacyc hends hsource)

variable {s : LayoutSettings}

theorem node?_of_layOut {d : Diagram} (h : p.layOut s = .ok d) {id : String}
    (hnode : id ∈ p.nodeIds) :
    ∃ place, d.node? id = some place ∧ place.level = p.levelOf p.startId? id := by
  obtain ⟨-, hnodes, -⟩ := layOut_eq_ok_iff.mp h
  obtain ⟨n, hn, hid⟩ := mem_nodeIds.mp hnode
  have hfind : (d.nodes.find? (·.id = id)).isSome := by
    rw [List.find?_isSome, hnodes]
    exact ⟨_, List.mem_map.mpr ⟨n, hn, rfl⟩, by simp [placeNode, hid]⟩
  obtain ⟨place, hplace⟩ := Option.isSome_iff_exists.mp hfind
  refine ⟨place, hplace, ?_⟩
  have hplaceid : place.id = id := by simpa using List.find?_some hplace
  have hmem := List.mem_of_find?_eq_some hplace
  rw [hnodes] at hmem
  obtain ⟨m, -, rfl⟩ := List.mem_map.mp hmem
  rw [← hplaceid]
  rfl

theorem runsDown_iff {d : Diagram} (h : p.layOut s = .ok d)
    (hends : ∀ f ∈ p.flows, p.isDangling f = false) {f : Flow} (hf : f ∈ p.flows) :
    d.RunsDown f ↔ p.levelOf p.startId? f.source < p.levelOf p.startId? f.target := by
  obtain ⟨hsource, htarget⟩ := isDangling_eq_false_iff.mp (hends f hf)
  obtain ⟨a, ha, halevel⟩ := node?_of_layOut h hsource
  obtain ⟨b, hb, hblevel⟩ := node?_of_layOut h htarget
  rw [Diagram.RunsDown, ha, hb, ← halevel, ← hblevel]
  constructor
  · rintro ⟨a', b', ha', hb', hlt⟩
    cases ha'
    cases hb'
    exact hlt
  · intro hlt
    exact ⟨a, b, rfl, rfl, hlt⟩

/-- An admissible acyclic process is laid out. Flows whose source is visited in
time run down, and all flows do exactly when every node is declared in time. -/
theorem compile_runs_down_iff (p : ProcessGraph) (s : LayoutSettings) (hvalid : p.isValid = true)
    (hacyc : p.Acyclic) :
    ∃ c, p.compile s = .ok c ∧
      (∀ f ∈ p.flows, some f.target ≠ p.startId? →
        p.predecessors f.source = [] ∨ p.FromStartOnly f.source ∨
          [f.source, f.target].Sublist p.nodeIds → c.diagram.RunsDown f) ∧
      ((∀ f ∈ p.flows, c.diagram.RunsDown f) ↔ p.DeclaredInTime) := by
  have hadmissible := isValid_iff.mp hvalid
  have hends : ∀ f ∈ p.flows, p.isDangling f = false := by
    intro f hf
    simpa only [isDangling_eq_false_iff, mem_nodeIds] using hadmissible.ends_exist f hf
  have hnodup : p.nodeIds.Nodup := (nodup_documentIds_iff.mp hadmissible.ids_distinct).1
  obtain ⟨d, hd, hc⟩ := compile_of_admissible (s := s) hadmissible
  refine ⟨_, hc, ?_, ?_⟩
  · intro f hf hv htime
    exact (runsDown_iff hd hends hf).mpr (levelOf_lt_of_in_time hacyc hends hnodup hf hv htime)
  · rw [← levels_grow_iff hacyc hends hnodup]
    exact forall₂_congr fun f hf => runsDown_iff hd hends hf

/-- A second start event declared last: it feeds a task declared after the join
that the task flows into, and it feeds the first start event. -/
def lateSource : ProcessGraph where
  id := "P"
  name := none
  nodes := [⟨"s", .startEvent, none⟩, ⟨"join", .exclusiveGateway, none⟩, ⟨"e", .endEvent, none⟩,
    ⟨"a", .task, none⟩, ⟨"late", .startEvent, none⟩]
  flows := [⟨"f1", "s", "join"⟩, ⟨"f2", "a", "join"⟩, ⟨"f3", "join", "e"⟩, ⟨"f4", "late", "a"⟩,
    ⟨"f5", "late", "s"⟩]

theorem acyclic_lateSource : lateSource.Acyclic :=
  acyclic_of_rank (fun id => if id = "late" then 0 else if id = "a" ∨ id = "s" then 1 else
    if id = "join" then 2 else 3) (by decide)

/-- The task and the join share a level, and so do the two start events. -/
theorem lateSource_not_all_down :
    lateSource.isValid = true ∧ lateSource.Acyclic ∧
      ∃ c, lateSource.compile .standard = .ok c ∧
        ¬ c.diagram.RunsDown ⟨"f2", "a", "join"⟩ ∧ ¬ c.diagram.RunsDown ⟨"f5", "late", "s"⟩ := by
  have hvalid : lateSource.isValid = true := by decide
  have hends : ∀ f ∈ lateSource.flows, lateSource.isDangling f = false := by decide
  obtain ⟨d, hd, hc⟩ := compile_of_admissible (s := .standard) (isValid_iff.mp hvalid)
  have htask : ¬ lateSource.levelOf lateSource.startId? "a" <
      lateSource.levelOf lateSource.startId? "join" := by decide +kernel
  have hstart : ¬ lateSource.levelOf lateSource.startId? "late" <
      lateSource.levelOf lateSource.startId? "s" := by decide +kernel
  refine ⟨hvalid, acyclic_lateSource, _, hc, ?_, ?_⟩
  · rw [runsDown_iff hd hends (by decide)]
    exact htask
  · rw [runsDown_iff hd hends (by decide)]
    exact hstart

/-- The flow from the first start event still runs down, as it is declared in time. -/
theorem lateSource_runs_down :
    lateSource.isValid = true ∧ lateSource.Acyclic ∧
      ∃ c, lateSource.compile .standard = .ok c ∧
        c.diagram.RunsDown ⟨"f1", "s", "join"⟩ ∧
        ((∀ f ∈ lateSource.flows, c.diagram.RunsDown f) ↔ lateSource.DeclaredInTime) := by
  have hvalid : lateSource.isValid = true := by decide
  obtain ⟨c, hc, htime, hall⟩ :=
    compile_runs_down_iff lateSource .standard hvalid acyclic_lateSource
  have hdeclared : ["s", "join"].Sublist lateSource.nodeIds := by decide
  exact ⟨hvalid, acyclic_lateSource, c, hc,
    htime ⟨"f1", "s", "join"⟩ (by decide) (by decide) (Or.inr (Or.inr hdeclared)), hall⟩

end ProcessGraph

end ProcessChart
