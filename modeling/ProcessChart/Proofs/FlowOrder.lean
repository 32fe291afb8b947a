import ProcessChart.Proofs.LevelLaw
import Mathlib.Data.List.Perm.Basic

/-!
Levels do not depend on the order in which flows are declared. That order decides
who is visited next, but not who is visited early, and hence for no flow whether
its source comes before its target. A level is made up of just this and the levels
of the predecessors that come before.
-/

namespace ProcessChart.ProcessGraph

/-- The second process has the nodes of the first one and its flows in any order. -/
structure Reordered (p q : ProcessGraph) : Prop where
  nodes : q.nodes = p.nodes
  flows : q.flows.Perm p.flows

namespace Reordered

variable {p q : ProcessGraph} {start? : Option String} {id u v : String} (h : p.Reordered q)

include h

theorem symm : q.Reordered p := ⟨h.nodes.symm, h.flows.symm⟩

theorem nodeIds_eq : q.nodeIds = p.nodeIds := by rw [nodeIds, nodeIds, h.nodes]

theorem startId?_eq : q.startId? = p.startId? := by
  rw [startId?, startId?, nodesOfKind, nodesOfKind, h.nodes]

theorem predecessors_perm (id : String) : (q.predecessors id).Perm (p.predecessors id) :=
  (h.flows.filter _).map _

theorem releasable (hid : p.Releasable start? id) : q.Releasable start? id := by
  induction hid with
  | start hnode hstart => exact .start (h.nodeIds_eq ▸ hnode) hstart
  | @next id hnode hentered _ ih =>
    have hperm := h.predecessors_perm id
    refine .next (h.nodeIds_eq ▸ hnode) ?_ fun u hu => ih u (hperm.subset hu)
    exact fun hnil => hentered (hnil ▸ hperm).nil_eq.symm

/-- The same nodes are visited early, though not in the same order. -/
theorem mem_releasedFrom : id ∈ q.releasedFrom start? ↔ id ∈ p.releasedFrom start? := by
  rw [mem_releasedFrom_iff, mem_releasedFrom_iff]
  exact ⟨h.symm.releasable, h.releasable⟩

/-- What is left over keeps its order, which is that of the nodes. -/
theorem leftovers_eq : q.leftovers start? = p.leftovers start? := by
  rw [leftovers, leftovers, h.nodeIds_eq]
  refine congrArg List.eraseDups (List.filter_congr fun x _ => ?_)
  rw [Bool.eq_iff_iff]
  simp [h.mem_releasedFrom]

theorem before_iff (hnode : v ∈ p.nodeIds) (hv : some v ≠ start?) (hu : u ∈ p.predecessors v) :
    [u, v].Sublist (q.visitOrder start?) ↔ [u, v].Sublist (p.visitOrder start?) := by
  have hu' : u ∈ q.predecessors v := (h.predecessors_perm v).symm.subset hu
  rw [before_iff_or (h.nodeIds_eq ▸ hnode) hv hu', before_iff_or hnode hv hu, h.mem_releasedFrom,
    h.leftovers_eq]

/-- By induction along the visits of the first process: the predecessors that count
in the one process come before in the other as well. -/
theorem levelOf_eq (hnode : v ∈ p.nodeIds) : q.levelOf start? v = p.levelOf start? v := by
  have hall : ∀ v ∈ p.visitOrder start?, q.levelOf start? v = p.levelOf start? v := by
    refine forall_mem_of_prefix fun before v after hsplit hbefore => ?_
    have hmem : v ∈ p.visitOrder start? := by simp [hsplit]
    have hnode : v ∈ p.nodeIds := mem_visitOrder.mp hmem
    by_cases hv : some v = start?
    · rw [← hv, levelOf_start, levelOf_start]
    have hcounted : ∀ u ∈ p.predecessors v, q.countedLevel start? u v = p.countedLevel start? u v := by
      intro u hu
      rw [countedLevel, countedLevel, if_congr (h.before_iff hnode hv hu) rfl rfl]
      split
      · next hfirst =>
        exact hbefore u ((pair_sublist_iff_of_split nodup_visitOrder hsplit).mp hfirst)
      · rfl
    have hvalues : (p.predecessors v).map (fun u => q.countedLevel start? u v + 1) =
        (p.predecessors v).map fun u => p.countedLevel start? u v + 1 :=
      List.map_congr_left fun u hu => congrArg (· + 1) (hcounted u hu)
    rw [ProcessGraph.levelOf_eq (h.nodeIds_eq ▸ hnode) hv, ProcessGraph.levelOf_eq hnode hv,
      ((h.predecessors_perm v).map _).foldl_op_eq, hvalues]
  exact hall v (mem_visitOrder.mpr hnode)

end Reordered

theorem get?_levels_eq_none {p : ProcessGraph} {id : String} (hid : id ∉ p.nodeIds) :
    (p.levels p.startId?).get? id = none := by
  rw [levels_eq_levelsAlong]
  refine get?_levelsAlong_of_not_mem (mt mem_visitOrder.mp hid) fun hstart => hid ?_
  exact mem_nodeIds_of_mem_startId? hstart.symm

/-- Declaring the flows in another order changes no level, and in either order
exactly the nodes have one. -/
theorem levels_reordered {p q : ProcessGraph} (h : p.Reordered q) (id : String) :
    (q.levels q.startId?).get? id = (p.levels p.startId?).get? id ∧
      ((p.levels p.startId?).contains id = true ↔ id ∈ p.nodeIds) := by
  by_cases hid : id ∈ p.nodeIds
  · have hp : (p.levels p.startId?).get? id = some (p.levelOf p.startId? id) :=
      get?_levels_eq_some hid
    have hq : (q.levels q.startId?).get? id = some (q.levelOf q.startId? id) :=
      get?_levels_eq_some (h.nodeIds_eq ▸ hid)
    rw [Table.contains, hq, hp, h.startId?_eq, h.levelOf_eq hid]
    exact ⟨rfl, iff_of_true rfl hid⟩
  · have hp := get?_levels_eq_none hid
    have hq := get?_levels_eq_none (h.nodeIds_eq ▸ hid)
    rw [Table.contains, hq, hp]
    exact ⟨rfl, iff_of_false Bool.false_ne_true hid⟩

/-- Two branches that meet in front of a circle, and a flow into nothing. -/
def branchesIntoCircle : ProcessGraph where
  id := "P"
  name := none
  nodes := [⟨"s", .startEvent, none⟩, ⟨"a", .task, none⟩, ⟨"b", .task, none⟩,
    ⟨"join", .exclusiveGateway, none⟩, ⟨"c", .task, none⟩, ⟨"d", .task, none⟩]
  flows := [⟨"f1", "s", "a"⟩, ⟨"f2", "s", "b"⟩, ⟨"f3", "a", "join"⟩, ⟨"f4", "b", "join"⟩,
    ⟨"f5", "join", "c"⟩, ⟨"f6", "c", "d"⟩, ⟨"f7", "d", "c"⟩, ⟨"f8", "d", "ghost"⟩]

/-- Backwards the branches are visited the other way round. -/
def branchesReversed : ProcessGraph :=
  { branchesIntoCircle with flows := branchesIntoCircle.flows.reverse }

theorem levels_branchesReversed :
    (branchesIntoCircle.Reordered branchesReversed ∧
      branchesIntoCircle.visitOrder (some "s") = ["s", "a", "b", "join", "c", "d"] ∧
      branchesReversed.visitOrder (some "s") = ["s", "b", "a", "join", "c", "d"]) ∧
    (branchesReversed.levels branchesReversed.startId?).get? "d" = some 4 ∧
      ((branchesIntoCircle.levels branchesIntoCircle.startId?).contains "d" = true ↔
        "d" ∈ branchesIntoCircle.nodeIds) := by
  have hreordered : branchesIntoCircle.Reordered branchesReversed := ⟨rfl, List.reverse_perm _⟩
  have hlevel : (branchesIntoCircle.levels branchesIntoCircle.startId?).get? "d" = some 4 := by
    decide +kernel
  obtain ⟨heq, hnode⟩ := levels_reordered hreordered "d"
  exact ⟨⟨hreordered, by decide +kernel, by decide +kernel⟩, heq.trans hlevel, hnode⟩

end ProcessChart.ProcessGraph
