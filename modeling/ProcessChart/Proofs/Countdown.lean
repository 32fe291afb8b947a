import ProcessChart.Proofs.Visits
import Mathlib.Order.Bounds.Basic

/-!
Visits by counting. Instead of asking whether all predecessors of a node have been
visited, a visit can keep for every node the number of flows into it that are still
to be followed. To visit an id is to follow every flow out of it once, and a node
waits for its own visit when nothing is left to be followed into it. The numbers are
exact at every visit, so they never run below zero and the same ids are visited in
the same order: the least set of nodes that contains the start and every node that
is entered from members only, each node after all that lead to it.
-/

namespace ProcessChart

/-- How many flows into each node are still to be followed, and the nodes that wait. -/
structure Countdown where
  remaining : Table Nat
  waiting : List String

namespace Countdown

/-- Follows one flow. The number of a node stays at zero once it is there, and an id
that is no node has none. -/
def follow (c : Countdown) (target : String) : Countdown :=
  match c.remaining.get? target with
  | none => c
  | some n =>
    ⟨c.remaining.insert target (n - 1), if n - 1 = 0 then c.waiting ++ [target] else c.waiting⟩

def followAll (c : Countdown) (targets : List String) : Countdown := targets.foldl follow c

variable {c : Countdown} {target : String} {targets : List String}

theorem follow_of_none (h : c.remaining.get? target = none) : c.follow target = c := by
  simp only [follow, h]

theorem follow_of_some {n : Nat} (h : c.remaining.get? target = some n) :
    c.follow target =
      ⟨c.remaining.insert target (n - 1),
        if n - 1 = 0 then c.waiting ++ [target] else c.waiting⟩ := by
  simp only [follow, h]

theorem followAll_cons : c.followAll (target :: targets) = (c.follow target).followAll targets :=
  rfl

theorem length_waiting_follow_le (c : Countdown) (target : String) :
    (c.follow target).waiting.length ≤ c.waiting.length + 1 := by
  cases h : c.remaining.get? target with
  | none =>
    rw [follow_of_none h]
    omega
  | some n =>
    rw [follow_of_some h]
    dsimp only
    split
    · rw [List.length_append, List.length_singleton]
    · omega

theorem length_waiting_followAll_le (c : Countdown) (targets : List String) :
    (c.followAll targets).waiting.length ≤ c.waiting.length + targets.length := by
  induction targets generalizing c with
  | nil => exact Nat.le_refl _
  | cons target targets ih =>
    have hfirst := length_waiting_follow_le c target
    have hrest := ih (c.follow target)
    rw [followAll_cons, List.length_cons]
    omega

theorem get?_follow (x : String) :
    (c.follow target).remaining.get? x =
      if x = target then (c.remaining.get? x).map (· - 1) else c.remaining.get? x := by
  cases h : c.remaining.get? target with
  | none =>
    rw [follow_of_none h]
    split
    · next hx => rw [hx, h, Option.map_none]
    · rfl
  | some n =>
    rw [follow_of_some h, Table.get?_insert]
    split
    · next hx => rw [hx, h, Option.map_some]
    · rfl

/-- Every flow that is followed takes one off the number of its target. -/
theorem get?_followAll (x : String) :
    (c.followAll targets).remaining.get? x = (c.remaining.get? x).map (· - targets.count x) := by
  induction targets generalizing c with
  | nil => simp [followAll]
  | cons target targets ih =>
    rw [followAll_cons, ih, get?_follow]
    by_cases hx : x = target
    · subst hx
      rw [if_pos rfl, Option.map_map, List.count_cons_self]
      refine congrArg (Option.map · _) (funext fun n => ?_)
      rw [Function.comp_apply]
      omega
    · rw [if_neg hx, List.count_cons_of_ne (Ne.symm hx)]

theorem waiting_follow (h : c.remaining.get? target ≠ some 0) :
    (c.follow target).waiting =
      c.waiting ++ if c.remaining.get? target = some 1 then [target] else [] := by
  cases hn : c.remaining.get? target with
  | none => simp [follow_of_none hn]
  | some n =>
    have hpos : n ≠ 0 := fun hzero => h (hzero ▸ hn)
    have hlast : n - 1 = 0 ↔ n = 1 := by omega
    rw [follow_of_some hn]
    by_cases hone : n = 1 <;> simp [hlast, hone]

theorem lastOccurrences_cons (x : String) (ids : List String) :
    (x :: ids).reverse.eraseDups.reverse =
      if x ∈ ids then ids.reverse.eraseDups.reverse else x :: ids.reverse.eraseDups.reverse := by
  rw [List.reverse_cons, eraseDups_concat]
  by_cases h : x ∈ ids <;> simp [h]

/-- The numbers allow for following one flow into each of the targets. -/
def Allows (c : Countdown) (targets : List String) : Prop :=
  ∀ x n, c.remaining.get? x = some n → targets.count x ≤ n

namespace Allows

variable (h : c.Allows (target :: targets))

include h

theorem ne_zero : c.remaining.get? target ≠ some 0 := by
  intro hzero
  have hle := h target 0 hzero
  rw [List.count_cons_self] at hle
  omega

theorem follow : (c.follow target).Allows targets := by
  intro x n hx
  rw [get?_follow] at hx
  by_cases heq : x = target
  · subst heq
    rw [if_pos rfl] at hx
    obtain ⟨m, hm, rfl⟩ := Option.map_eq_some_iff.mp hx
    have hle := h x m hm
    rw [List.count_cons_self] at hle
    omega
  · rw [if_neg heq] at hx
    have hle := h x n hx
    rwa [List.count_cons_of_ne (Ne.symm heq)] at hle

/-- Whether the targets use up the number of an id does not change when the first flow
is followed. -/
theorem used_up_iff (x : String) :
    (c.follow target).remaining.get? x = some (targets.count x) ↔
      c.remaining.get? x = some ((target :: targets).count x) := by
  rw [get?_follow]
  by_cases heq : x = target
  · subst heq
    rw [if_pos rfl, List.count_cons_self, Option.map_eq_some_iff]
    constructor
    · rintro ⟨m, hm, hcount⟩
      have hne : m ≠ 0 := fun hzero => h.ne_zero (hzero ▸ hm)
      rw [hm, Option.some_inj]
      omega
    · intro hm
      exact ⟨_, hm, by omega⟩
  · rw [if_neg heq, List.count_cons_of_ne (Ne.symm heq)]

theorem ne_one_of_mem (hmem : target ∈ targets) : c.remaining.get? target ≠ some 1 := by
  intro hone
  have hle := h target 1 hone
  have hcount : 0 < targets.count target := List.count_pos_iff.mpr hmem
  rw [List.count_cons_self] at hle
  omega

end Allows

/-- A target begins to wait with the last flow into it, if its number is used up then. -/
theorem waiting_followAll (h : c.Allows targets) :
    (c.followAll targets).waiting =
      c.waiting ++ targets.reverse.eraseDups.reverse.filter fun x =>
        c.remaining.get? x = some (targets.count x) := by
  induction targets generalizing c with
  | nil => simp [followAll]
  | cons target targets ih =>
    rw [followAll_cons, ih h.follow, waiting_follow h.ne_zero, List.append_assoc,
      lastOccurrences_cons]
    simp only [h.used_up_iff]
    congr 1
    -- A target that is met again does not wait yet: the flow just followed was not its last.
    by_cases hmem : target ∈ targets
    · rw [if_neg (h.ne_one_of_mem hmem), if_pos hmem, List.nil_append]
    · have hcount : (target :: targets).count target = 1 := by
        rw [List.count_cons_self, List.count_eq_zero_of_not_mem hmem]
      rw [if_neg hmem, List.filter_cons, hcount]
      by_cases hone : c.remaining.get? target = some 1 <;> simp [hone]

end Countdown

namespace ProcessGraph

variable {p : ProcessGraph} {start? : Option String} {visited : List String} {id : String}
  {c : Countdown}

/-- Visits the waiting ids in turn, and follows all flows out of an id when it is
visited for the first time. -/
def releaseCounting (p : ProcessGraph) : List String → Countdown → List String
  | visited, ⟨_, []⟩ => visited
  | visited, ⟨remaining, id :: rest⟩ =>
    if visited.contains id then p.releaseCounting visited ⟨remaining, rest⟩
    else
      p.releaseCounting (visited ++ [id]) (Countdown.followAll ⟨remaining, rest⟩ (p.successors id))
termination_by visited c => c.waiting.length + (p.pending visited).length
decreasing_by
  · simp
  · rename_i h
    have hflows := length_pending_append (p := p) (Bool.eq_false_iff.mpr h)
    have hwaiting := Countdown.length_waiting_followAll_le ⟨remaining, rest⟩ (p.successors id)
    rw [length_successors] at hwaiting
    simp only [List.length_cons] at hwaiting ⊢
    omega

/-- The flows into every node, counted one by one. -/
def inDegrees (p : ProcessGraph) : Table Nat :=
  .ofPairs (p.nodeIds.map fun id => (id, (p.flowsInto id).length))

/-- The ids visited by counting; a start that is no node is not visited. -/
def countedFrom (p : ProcessGraph) (start? : Option String) : List String :=
  p.releaseCounting [] ⟨p.inDegrees, start?.toList.filter p.inDegrees.contains⟩

/-- The flows into the id whose source has not been visited. -/
def openInto (p : ProcessGraph) (visited : List String) (id : String) : Nat :=
  (p.pending visited).countP (·.target = id)

/-- The numbers are those of the flows that no visit has followed. -/
def Tells (p : ProcessGraph) (remaining : Table Nat) (visited : List String) : Prop :=
  ∀ x, remaining.get? x = if x ∈ p.nodeIds then some (p.openInto visited x) else none

theorem openInto_append (x : String) (h : id ∉ visited) :
    p.openInto (visited ++ [id]) x + (p.successors id).count x = p.openInto visited x := by
  have hnew : visited.contains id = false := by simpa using h
  have hcount : (p.successors id).count x = (p.flowsFrom id).countP (·.target = x) := by
    rw [successors, List.count, List.countP_map]
    exact List.countP_congr fun f _ => by simp
  rw [hcount]
  exact countP_pending_append (·.target = x) hnew

theorem openInto_eq_zero_iff (x : String) :
    p.openInto visited x = 0 ↔ ∀ u ∈ p.predecessors x, u ∈ visited := by
  rw [openInto, List.countP_eq_zero]
  constructor
  · intro h u hu
    obtain ⟨f, hf, htarget, rfl⟩ := mem_predecessors.mp hu
    by_contra hsource
    have hpending : f ∈ p.pending visited := by simp [pending, hf, hsource]
    exact h f hpending (by simp [htarget])
  · intro h f hf htarget
    obtain ⟨hflow, hsource⟩ := List.mem_filter.mp hf
    have hu : f.source ∈ p.predecessors x :=
      mem_predecessors.mpr ⟨f, hflow, of_decide_eq_true htarget, rfl⟩
    simp [h f.source hu] at hsource

namespace Tells

theorem initial : p.Tells p.inDegrees [] := by
  intro x
  have hpending : p.pending [] = p.flows := List.filter_eq_self.mpr fun f _ => rfl
  rw [inDegrees, Table.get?_ofPairs, openInto, hpending, List.countP_eq_length_filter]
  rfl

variable (h : p.Tells c.remaining visited) (hid : id ∉ visited)

include h hid

theorem followAll : p.Tells (c.followAll (p.successors id)).remaining (visited ++ [id]) := by
  intro x
  rw [Countdown.get?_followAll, h x]
  split
  · rw [Option.map_some, ← openInto_append x hid, Nat.add_sub_cancel]
  · rfl

theorem allows : c.Allows (p.successors id) := by
  intro x n hx
  rw [h x] at hx
  split at hx
  · have hopen := openInto_append (p := p) x hid
    rw [Option.some_inj] at hx
    omega
  · cases hx

/-- The flows out of an id use up the number of a node when no other predecessor is missing. -/
theorem used_up_iff (x : String) :
    c.remaining.get? x = some ((p.successors id).count x) ↔
      x ∈ p.nodeIds ∧ ∀ u ∈ p.predecessors x, u ∈ visited ++ [id] := by
  rw [h x, ← openInto_eq_zero_iff]
  split
  · next hnode =>
    have hopen := openInto_append (p := p) x hid
    rw [Option.some_inj, and_iff_right hnode]
    omega
  · next hnode => simp [hnode]

theorem waiting_followAll :
    (c.followAll (p.successors id)).waiting =
      c.waiting ++ p.releasedBy (visited ++ [id]) id := by
  rw [Countdown.waiting_followAll (h.allows hid), releasedBy]
  refine congrArg (c.waiting ++ ·) (List.filter_congr fun x _ => ?_)
  rw [Bool.eq_iff_iff, decide_eq_true_iff, h.used_up_iff hid]
  simp [hasNode_iff]

end Tells

/-- Counting visits the same ids in the same order. -/
theorem releaseCounting_eq_release (h : p.Tells c.remaining visited) :
    p.releaseCounting visited c = p.release visited c.waiting := by
  fun_induction p.releaseCounting visited c with
  | case1 visited remaining => rw [release]
  | case2 visited remaining id rest hmem ih =>
    rw [release, if_pos hmem]
    exact ih h
  | case3 visited remaining id rest hmem ih =>
    have hid : id ∉ visited := by simpa using hmem
    have hrest : p.Tells (Countdown.mk remaining rest).remaining visited := h
    rw [release, if_neg hmem, ih (hrest.followAll hid), hrest.waiting_followAll hid]

theorem contains_inDegrees (id : String) : p.inDegrees.contains id = p.hasNode id := by
  rw [Bool.eq_iff_iff, hasNode_iff, Table.contains, inDegrees, Table.get?_ofPairs]
  split
  · next hnode => simp [hnode]
  · next hnode => simp [hnode]

theorem countedFrom_eq_releasedFrom (start? : Option String) :
    p.countedFrom start? = p.releasedFrom start? := by
  have hwaiting : start?.toList.filter p.inDegrees.contains = start?.toList.filter p.hasNode :=
    List.filter_congr fun x _ => contains_inDegrees x
  rw [countedFrom, releaseCounting_eq_release Tells.initial, releasedFrom, hwaiting]

theorem prefix_release (visited waiting : List String) : visited <+: p.release visited waiting := by
  fun_induction p.release visited waiting with
  | case1 visited => exact List.prefix_refl visited
  | case2 visited id rest hmem ih => exact ih
  | case3 visited id rest hmem ih => exact (List.prefix_append visited [id]).trans ih

/-- Whatever flows lead back to it, the start is the first to be visited. -/
theorem head?_releasedFrom {s : String} (hnode : s ∈ p.nodeIds) :
    (p.releasedFrom (some s)).head? = some s := by
  have hwaiting : (some s).toList.filter p.hasNode = [s] := by simp [hasNode_iff.mpr hnode]
  have hfirst : [s] <+: p.releasedFrom (some s) := by
    rw [releasedFrom, hwaiting, release, if_neg (by simp)]
    exact prefix_release [s] _
  obtain ⟨rest, hrest⟩ := hfirst
  rw [← hrest]
  rfl

/-- The set has the start, if it is a node, and every node that flows enter all of
which come from members of the set. -/
structure HoldsReleased (p : ProcessGraph) (start? : Option String) (s : Set String) : Prop where
  start : ∀ id ∈ p.nodeIds, some id = start? → id ∈ s
  next : ∀ id ∈ p.nodeIds, p.flowsInto id ≠ [] → (∀ f ∈ p.flowsInto id, f.source ∈ s) → id ∈ s

theorem isLeast_releasedFrom (start? : Option String) :
    IsLeast {s | p.HoldsReleased start? s} {id | id ∈ p.releasedFrom start?} := by
  constructor
  · refine ⟨fun id hnode hstart => mem_releasedFrom_iff.mpr (.start hnode hstart), ?_⟩
    intro id hnode hentered hall
    refine mem_releasedFrom_iff.mpr (.next hnode (by simpa [predecessors] using hentered) ?_)
    intro u hu
    obtain ⟨f, hf, rfl⟩ := List.mem_map.mp hu
    exact mem_releasedFrom_iff.mp (hall f hf)
  -- Any other such set takes in the members in the order in which they can be visited.
  · intro s hs id hid
    have hreleasable : p.Releasable start? id := mem_releasedFrom_iff.mp hid
    induction hreleasable with
    | start hnode hstart => exact hs.start _ hnode hstart
    | next hnode hentered hall ih =>
      refine hs.next _ hnode (by simpa [predecessors] using hentered) fun f hf => ?_
      have hu := List.mem_map_of_mem (f := (·.source)) hf
      exact ih f.source hu (mem_releasedFrom_iff.mpr (hall f.source hu))

/-- Every node id is visited once. First come the ids that counting visits, the least set
that has the start and every node entered from members only; the start is the first of them
and any other one comes after the sources of all flows into it. The remaining nodes follow in
the order in which their ids are first declared. -/
theorem visitOrder_by_counting (p : ProcessGraph) (start? : Option String) :
    ((p.visitOrder start?).Nodup ∧ ∀ id, id ∈ p.visitOrder start? ↔ id ∈ p.nodeIds) ∧
    (p.visitOrder start? = p.releasedFrom start? ++ p.leftovers start? ∧
      p.releasedFrom start? = p.countedFrom start?) ∧
    IsLeast {s | p.HoldsReleased start? s} {id | id ∈ p.releasedFrom start?} ∧
    (∀ s ∈ start?, s ∈ p.nodeIds → (p.releasedFrom start?).head? = some s) ∧
    (∀ id ∈ p.releasedFrom start?, some id ≠ start? →
      ∀ f ∈ p.flowsInto id, [f.source, id].Sublist (p.releasedFrom start?)) ∧
    (p.leftovers start?).Pairwise fun x y => p.nodeIds.idxOf x < p.nodeIds.idxOf y := by
  refine ⟨⟨nodup_visitOrder, fun id => mem_visitOrder⟩,
    ⟨visitOrder_eq_append, (countedFrom_eq_releasedFrom start?).symm⟩,
    isLeast_releasedFrom start?, ?_, ?_, pairwise_idxOf_filter p.nodeIds _⟩
  · rintro s rfl hnode
    exact head?_releasedFrom hnode
  · intro id hid hother f hf
    obtain ⟨-, hfollows⟩ := (start_or_follows_of_released hid).resolve_left hother
    exact hfollows f.source (List.mem_map_of_mem hf)

/-- Two flows lead from the start to `y` and one leads back; `w` waits for an id that is no
node, and one id stands for the first and the last node. -/
def ledBack : ProcessGraph where
  id := "P"
  name := none
  nodes := [⟨"x", .task, none⟩, ⟨"w", .task, none⟩, ⟨"s", .startEvent, none⟩, ⟨"y", .task, none⟩,
    ⟨"z", .endEvent, none⟩, ⟨"x", .endEvent, none⟩]
  flows := [⟨"f1", "s", "y"⟩, ⟨"f2", "s", "y"⟩, ⟨"f3", "y", "s"⟩, ⟨"f4", "y", "z"⟩,
    ⟨"f5", "ghost", "w"⟩, ⟨"f6", "w", "x"⟩]

/-- The start is visited first although `y` leads back to it, `y` before `z`, and last
the nodes behind the unknown id. -/
theorem visitOrder_ledBack :
    (("s" ∈ ledBack.nodeIds ∧ ledBack.flowsInto "s" ≠ []) ∧
      ("z" ∈ ledBack.releasedFrom (some "s") ∧ some "z" ≠ some "s" ∧
        ⟨"f4", "y", "z"⟩ ∈ ledBack.flowsInto "z") ∧
      ledBack.visitOrder (some "s") = ["s", "y", "z", "x", "w"]) ∧
    (ledBack.releasedFrom (some "s")).head? = some "s" ∧
    ["y", "z"].Sublist (ledBack.releasedFrom (some "s")) := by
  have hstart : "s" ∈ ledBack.nodeIds := by decide
  have hentered : ledBack.flowsInto "s" ≠ [] := by decide
  have hreleased : "z" ∈ ledBack.releasedFrom (some "s") := by decide +kernel
  have hother : some "z" ≠ some "s" := by decide
  have hflow : ⟨"f4", "y", "z"⟩ ∈ ledBack.flowsInto "z" := by decide
  have horder : ledBack.visitOrder (some "s") = ["s", "y", "z", "x", "w"] := by decide +kernel
  obtain ⟨-, -, -, hfirst, hfollows, -⟩ := visitOrder_by_counting ledBack (some "s")
  exact ⟨⟨⟨hstart, hentered⟩, ⟨hreleased, hother, hflow⟩, horder⟩, hfirst "s" rfl hstart,
    hfollows "z" hreleased hother _ hflow⟩

end ProcessGraph

end ProcessChart
