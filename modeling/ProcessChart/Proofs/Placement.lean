import ProcessChart.Layout.Place
import ProcessChart.Proofs.Defects
import ProcessChart.Proofs.FallibleSteps

/-!
What laying out a process returns. A flow is routed as soon as both its ends
are nodes, so a process without dangling flows has a diagram, and a diagram
keeps the nodes and flows of its process in their order.
-/

namespace ProcessChart

/-- The node is the last one of the list that carries the id. -/
def LastNamed (places : List NodePlace) (id : String) (n : NodePlace) : Prop :=
  ∃ before after, places = before ++ n :: after ∧ n.id = id ∧ ∀ m ∈ after, m.id ≠ id

/-- The first end of the flow that is none of the ids. -/
def Flow.Misses (f : Flow) (ids : List String) (id : String) : Prop :=
  (f.source ∉ ids ∧ id = f.source) ∨ (f.source ∈ ids ∧ f.target ∉ ids ∧ id = f.target)

namespace ProcessGraph

variable {p : ProcessGraph} {s : LayoutSettings}

@[simp] theorem ids_placeNodes : (p.placeNodes s).map (·.id) = p.nodeIds := by
  simp [placeNodes, nodeIds, placeNode]

section Ends

variable {places : List NodePlace} {flow id : String} {f : Flow}

theorem lastNamed_iff {n : NodePlace} :
    LastNamed places id n ↔ places.reverse.find? (·.id = id) = some n := by
  rw [List.find?_eq_some_iff_append, LastNamed]
  constructor
  · rintro ⟨before, after, rfl, hid, hafter⟩
    refine ⟨by simpa using hid, after.reverse, before.reverse, by simp, fun m hm => ?_⟩
    simpa using hafter m (List.mem_reverse.mp hm)
  · rintro ⟨hid, after, before, hsplit, hafter⟩
    refine ⟨before.reverse, after.reverse, ?_, by simpa using hid, fun m hm => ?_⟩
    · rw [← List.reverse_reverse places, hsplit]
      simp
    · simpa using hafter m (List.mem_reverse.mp hm)

theorem exists_lastNamed_iff : (∃ n, LastNamed places id n) ↔ id ∈ places.map (·.id) := by
  simp only [lastNamed_iff]
  rw [← Option.isSome_iff_exists, List.find?_isSome, List.mem_map]
  simp

theorem boundsOf_eq_ok_iff {b : Bounds} :
    boundsOf places flow id = .ok b ↔ ∃ n, LastNamed places id n ∧ n.bounds = b := by
  simp only [lastNamed_iff]
  rw [boundsOf]
  cases places.reverse.find? (·.id = id) with
  | none => simp
  | some n => simp

theorem boundsOf_eq_error_iff {missing : MissingBounds} :
    boundsOf places flow id = .error missing ↔
      id ∉ places.map (·.id) ∧ missing = ⟨flow, id⟩ := by
  rw [← exists_lastNamed_iff]
  simp only [lastNamed_iff]
  rw [boundsOf]
  cases places.reverse.find? (·.id = id) with
  | none => simp [eq_comm]
  | some n => simp

theorem routeFlow_eq_ok_iff {e : EdgeRoute} :
    routeFlow s places f = .ok e ↔
      ∃ a b, LastNamed places f.source a ∧ LastNamed places f.target b ∧
        e = ⟨f.id, f.source, f.target, s.route a.bounds b.bounds⟩ := by
  simp only [routeFlow, bind_eq_ok_iff, boundsOf_eq_ok_iff]
  constructor
  · rintro ⟨_, ⟨a, ha, rfl⟩, _, ⟨b, hb, rfl⟩, h⟩
    exact ⟨a, b, ha, hb, (Except.ok.inj h).symm⟩
  · rintro ⟨a, b, ha, hb, rfl⟩
    exact ⟨_, ⟨a, ha, rfl⟩, _, ⟨b, hb, rfl⟩, rfl⟩

theorem exists_boundsOf_iff :
    (∃ b, boundsOf places flow id = .ok b) ↔ id ∈ places.map (·.id) := by
  rw [← exists_lastNamed_iff]
  simp only [boundsOf_eq_ok_iff]
  constructor
  · rintro ⟨b, n, hn, -⟩
    exact ⟨n, hn⟩
  · rintro ⟨n, hn⟩
    exact ⟨_, n, hn, rfl⟩

theorem exists_routeFlow_iff :
    (∃ e, routeFlow s places f = .ok e) ↔
      f.source ∈ places.map (·.id) ∧ f.target ∈ places.map (·.id) := by
  simp only [routeFlow, bind_eq_ok_iff]
  constructor
  · rintro ⟨e, a, ha, b, hb, -⟩
    exact ⟨exists_boundsOf_iff.mp ⟨a, ha⟩, exists_boundsOf_iff.mp ⟨b, hb⟩⟩
  · rintro ⟨hsource, htarget⟩
    obtain ⟨a, ha⟩ := exists_boundsOf_iff.mpr hsource
    obtain ⟨b, hb⟩ := exists_boundsOf_iff.mpr htarget
    exact ⟨_, a, ha, b, hb, rfl⟩

theorem routeFlow_eq_error_iff {missing : MissingBounds} :
    routeFlow s places f = .error missing ↔
      missing.flow = f.id ∧ f.Misses (places.map (·.id)) missing.node := by
  simp only [routeFlow, bind_eq_error_iff, boundsOf_eq_error_iff]
  constructor
  · rintro (⟨hsource, rfl⟩ | ⟨a, ha, ⟨htarget, rfl⟩ | ⟨b, -, h⟩⟩)
    · exact ⟨rfl, Or.inl ⟨hsource, rfl⟩⟩
    · exact ⟨rfl, Or.inr ⟨exists_boundsOf_iff.mp ⟨a, ha⟩, htarget, rfl⟩⟩
    · cases h
  · obtain ⟨flow, node⟩ := missing
    rintro ⟨rfl, ⟨hsource, rfl⟩ | ⟨hsource, htarget, rfl⟩⟩
    · exact Or.inl ⟨hsource, rfl⟩
    · obtain ⟨a, ha⟩ := exists_boundsOf_iff.mpr hsource
      exact Or.inr ⟨a, ha, Or.inl ⟨htarget, rfl⟩⟩

end Ends

theorem layOut_eq_ok_iff {d : Diagram} :
    p.layOut s = .ok d ↔
      d.processId = p.id ∧ d.nodes = p.placeNodes s ∧
        List.Forall₂ (fun f e => routeFlow s (p.placeNodes s) f = .ok e) p.flows d.edges := by
  simp only [layOut, bind_eq_ok_iff, mapM_eq_ok_iff]
  constructor
  · rintro ⟨edges, hedges, h⟩
    cases h
    exact ⟨rfl, rfl, hedges⟩
  · rintro ⟨hid, hnodes, hedges⟩
    exact ⟨d.edges, hedges, by rw [← hid, ← hnodes]; rfl⟩

/-- The flow at position `i` is the first one that cannot be routed. -/
def FailsAt (p : ProcessGraph) (s : LayoutSettings) (i : Nat) (missing : MissingBounds) : Prop :=
  ∃ hi : i < p.flows.length, routeFlow s (p.placeNodes s) p.flows[i] = .error missing ∧
    ∀ j (hj : j < i), ∃ e, routeFlow s (p.placeNodes s) p.flows[j] = .ok e

theorem layOut_eq_error_iff {missing : MissingBounds} :
    p.layOut s = .error missing ↔ ∃ i, p.FailsAt s i missing := by
  have hroutes : p.layOut s = .error missing ↔
      p.flows.mapM (routeFlow s (p.placeNodes s)) = .error missing := by
    rw [layOut]
    cases p.flows.mapM (routeFlow s (p.placeNodes s)) <;>
      simp [bind, Except.bind, pure, Except.pure]
  rw [hroutes, mapM_eq_error_iff]
  rfl

theorem layOut_eq_error_iff_split {missing : MissingBounds} :
    p.layOut s = .error missing ↔
      ∃ before f after, p.flows = before ++ f :: after ∧
        routeFlow s (p.placeNodes s) f = .error missing ∧
        ∀ g ∈ before, ∃ e, routeFlow s (p.placeNodes s) g = .ok e := by
  rw [layOut_eq_error_iff]
  exact exists_getElem_iff_append (P := fun f => routeFlow s (p.placeNodes s) f = .error missing)
    (Q := fun f => ∃ e, routeFlow s (p.placeNodes s) f = .ok e)

theorem exists_layOut_iff :
    (∃ d, p.layOut s = .ok d) ↔ ∀ f ∈ p.flows, f.source ∈ p.nodeIds ∧ f.target ∈ p.nodeIds := by
  have hroutes : (∃ d, p.layOut s = .ok d) ↔
      ∃ edges, p.flows.mapM (routeFlow s (p.placeNodes s)) = .ok edges := by
    simp only [layOut, bind_eq_ok_iff]
    constructor
    · rintro ⟨d, edges, hedges, -⟩
      exact ⟨edges, hedges⟩
    · rintro ⟨edges, hedges⟩
      exact ⟨_, edges, hedges, rfl⟩
  rw [hroutes, exists_mapM_eq_ok_iff]
  simp only [exists_routeFlow_iff, ids_placeNodes]

theorem exists_layOut (h : ∀ f ∈ p.flows, f.source ∈ p.nodeIds ∧ f.target ∈ p.nodeIds) :
    ∃ d, p.layOut s = .ok d := exists_layOut_iff.mpr h

theorem ids_of_layOut {d : Diagram} (h : p.layOut s = .ok d) :
    d.nodes.map (·.id) = p.nodeIds ∧ d.edges.map (·.id) = p.flowIds := by
  obtain ⟨-, hnodes, hedges⟩ := layOut_eq_ok_iff.mp h
  refine ⟨by rw [hnodes, ids_placeNodes], ?_⟩
  have hids : List.Forall₂ (· = ·) (d.edges.map (·.id)) (p.flows.map (·.id)) := by
    rw [List.forall₂_map_left_iff, List.forall₂_map_right_iff]
    refine (hedges.imp fun f e he => ?_).flip
    obtain ⟨a, b, -, -, rfl⟩ := routeFlow_eq_ok_iff.mp he
    rfl
  rwa [List.forall₂_eq_eq_eq] at hids

end ProcessGraph

end ProcessChart
