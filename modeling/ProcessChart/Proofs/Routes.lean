import ProcessChart.Proofs.Centring
import ProcessChart.Proofs.Placement
import Mathlib.Data.List.Chain

/-!
What a laid out process looks like. It has a diagram exactly when all flows lead from
nodes to nodes, and the diagram shows every node and every flow in their order. A
flow runs along vertical and horizontal lines from the middle of the bottom of its
source to the middle of the top of its target, wherever these two lie.
-/

namespace ProcessChart

/-- Two points on one vertical or horizontal line. -/
def Point.Aligned (a b : Point) : Prop := a.x = b.x ∨ a.y = b.y

/-- The middle of a rectangle between its sides, rounded to a pixel that 32 bits can hold. -/
def Bounds.middle (b : Bounds) : Int :=
  max (-2 ^ 31) (min (ProcessGraph.roundHalfUp (b.x + b.width / 2)) (2 ^ 31 - 1))

theorem Bounds.centerX_eq (b : Bounds) : b.centerX = b.middle := by
  have hquotient : (b.x + b.width / 2 : ℚ) = ((2 * b.x + b.width : ℤ) : ℚ) / (2 : ℕ) := by
    push_cast
    ring
  have hround : ProcessGraph.roundHalfUp (b.x + b.width / 2) = b.x + (b.width + 1).fdiv 2 := by
    rw [hquotient, ProcessGraph.roundHalfUp_div _ two_ne_zero,
      Int.fdiv_eq_ediv_of_nonneg _ (by decide)]
    omega
  rw [centerX, clampCoordinate, middle, hround]
  rfl

/-- A line of one or three straight pieces from the middle of the bottom of one rectangle to
the middle of the top of another one. -/
structure Joins (points : List Point) (a b : Bounds) : Prop where
  first : points.head? = some ⟨a.middle, a.y + a.height⟩
  last : points.getLast? = some ⟨b.middle, b.y⟩
  count : points.length = 2 ∨ points.length = 4
  straight : points.IsChain Point.Aligned

theorem LayoutSettings.joins_route (s : LayoutSettings) (a b : Bounds) :
    Joins (s.route a b) a b := by
  have hexit : a.exit = ⟨a.middle, a.y + a.height⟩ := by
    rw [Bounds.exit, Bounds.centerX_eq, Bounds.bottom]
  have hentry : b.entry = ⟨b.middle, b.y⟩ := by
    rw [Bounds.entry, Bounds.centerX_eq]
  rw [route, hexit, hentry]
  by_cases hx : a.middle = b.middle
  · rw [if_pos hx]
    exact ⟨rfl, rfl, Or.inl rfl, List.isChain_pair.mpr (Or.inl hx)⟩
  · rw [if_neg hx]
    refine ⟨rfl, rfl, Or.inr rfl, ?_⟩
    simp [Point.Aligned]

-- Both middles are at -3/2.
example (s : LayoutSettings) :
    s.route ⟨-3, 0, 3, 10⟩ ⟨-2, 40, 1, 10⟩ = [⟨-1, 10⟩, ⟨-1, 40⟩] := rfl

namespace ProcessGraph

variable {p : ProcessGraph} {s : LayoutSettings}

/-- A node of the diagram shows a node of the process. -/
theorem forall₂_placeNodes (p : ProcessGraph) (s : LayoutSettings) :
    List.Forall₂ (fun n m => m.id = n.id ∧ m.kind = n.kind ∧ m.label = n.label)
      p.nodes (p.placeNodes s) := by
  rw [placeNodes, List.forall₂_map_right_iff, List.forall₂_same]
  exact fun n _ => ⟨rfl, rfl, rfl⟩

/-- A process is laid out exactly when all ends of its flows are nodes. If some are
not, the failure names the first flow with such an end, and its source rather than
its target. A diagram has the nodes and the flows of the process in their order, and
every flow joins the last nodes that carry the ids of its ends. -/
theorem layOut_joins (p : ProcessGraph) (s : LayoutSettings) :
    ((∃ d, p.layOut s = .ok d) ↔ ∀ f ∈ p.flows, f.source ∈ p.nodeIds ∧ f.target ∈ p.nodeIds) ∧
    (∀ missing, p.layOut s = .error missing ↔
      ∃ before f after, p.flows = before ++ f :: after ∧
        (missing.flow = f.id ∧ f.Misses p.nodeIds missing.node) ∧
        ∀ g ∈ before, g.source ∈ p.nodeIds ∧ g.target ∈ p.nodeIds) ∧
    ∀ d, p.layOut s = .ok d →
      d.processId = p.id ∧
      List.Forall₂ (fun n m => m.id = n.id ∧ m.kind = n.kind ∧ m.label = n.label)
        p.nodes d.nodes ∧
      List.Forall₂ (fun f e => e.id = f.id ∧ e.source = f.source ∧ e.target = f.target ∧
        ∃ a b, LastNamed d.nodes f.source a ∧ LastNamed d.nodes f.target b ∧
          Joins e.points a.bounds b.bounds) p.flows d.edges := by
  refine ⟨exists_layOut_iff, ?_, ?_⟩
  · intro missing
    rw [layOut_eq_error_iff_split]
    simp only [exists_routeFlow_iff, routeFlow_eq_error_iff, ids_placeNodes]
  · intro d hd
    obtain ⟨hid, hnodes, hedges⟩ := layOut_eq_ok_iff.mp hd
    rw [hnodes]
    refine ⟨hid, forall₂_placeNodes p s, hedges.imp fun f e he => ?_⟩
    obtain ⟨a, b, ha, hb, rfl⟩ := routeFlow_eq_ok_iff.mp he
    exact ⟨rfl, rfl, rfl, a, b, ha, hb, s.joins_route a.bounds b.bounds⟩

/-- One id for two nodes of different kinds, with a flow from it to itself and one
back to the start. -/
def sharedId : ProcessGraph where
  id := "P"
  name := none
  nodes := [⟨"s", .startEvent, none⟩, ⟨"a", .task, some "Check"⟩, ⟨"a", .endEvent, none⟩]
  flows := [⟨"f1", "s", "a"⟩, ⟨"f2", "a", "a"⟩, ⟨"f3", "a", "s"⟩]

/-- Further flows, of which the first lacks its target and the second both its ends. -/
def sharedIdAstray : ProcessGraph :=
  { sharedId with flows := sharedId.flows ++ [⟨"f4", "s", "nowhere"⟩, ⟨"f5", "ghost", "nowhere"⟩] }

theorem layOut_sharedId :
    (∀ f ∈ sharedId.flows, f.source ∈ sharedId.nodeIds ∧ f.target ∈ sharedId.nodeIds) ∧
    (∃ d, sharedId.layOut .standard = .ok d ∧
      List.Forall₂ (fun f e => e.id = f.id ∧ e.source = f.source ∧ e.target = f.target ∧
        ∃ a b, LastNamed d.nodes f.source a ∧ LastNamed d.nodes f.target b ∧
          Joins e.points a.bounds b.bounds) sharedId.flows d.edges) ∧
    sharedIdAstray.layOut .standard = .error ⟨"f4", "nowhere"⟩ := by
  have hends : ∀ f ∈ sharedId.flows,
      f.source ∈ sharedId.nodeIds ∧ f.target ∈ sharedId.nodeIds := by decide
  obtain ⟨hok, -, hjoins⟩ := layOut_joins sharedId .standard
  obtain ⟨d, hd⟩ := hok.mpr hends
  refine ⟨hends, ⟨d, hd, (hjoins d hd).2.2⟩, ?_⟩
  refine ((layOut_joins sharedIdAstray .standard).2.1 ⟨"f4", "nowhere"⟩).mpr ?_
  refine ⟨sharedId.flows, ⟨"f4", "s", "nowhere"⟩, [⟨"f5", "ghost", "nowhere"⟩], rfl, ?_, hends⟩
  exact ⟨rfl, Or.inr ⟨by decide, by decide, rfl⟩⟩

end ProcessGraph

end ProcessChart
