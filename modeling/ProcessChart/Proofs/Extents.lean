import ProcessChart.Layout.Diagram

/-!
The extent of a diagram is the least rectangle around its nodes and points. A point is a
rectangle without size, so nodes and points are one list of shapes, and the outermost
sides of the shapes are met one shape after the other. Nothing else comes out of a scan
that begins with coordinates at the ends of their range, where any shape lies farther out.
-/

namespace ProcessChart

/-- A point as a rectangle. -/
def Point.spot (p : Point) : Bounds := ⟨p.x, p.y, 0, 0⟩

/-- The outermost coordinates met so far. -/
structure Extrema where
  left : Int
  top : Int
  right : Int
  bottom : Int

namespace Bounds

/-- The point lies in the rectangle or on its border. -/
def Holds (b : Bounds) (p : Point) : Prop :=
  b.x ≤ p.x ∧ p.x ≤ b.right ∧ b.y ≤ p.y ∧ p.y ≤ b.bottom

/-- The first rectangle lies inside the second. -/
def Within (a b : Bounds) : Prop := ∀ p, a.Holds p → b.Holds p

/-- The rectangle has no negative size. -/
structure Proper (b : Bounds) : Prop where
  width : 0 ≤ b.width
  height : 0 ≤ b.height

/-- All nodes and points of the diagram lie in the rectangle. -/
structure Covers (b : Bounds) (d : Diagram) : Prop where
  nodes : ∀ n ∈ d.nodes, n.bounds.Within b
  points : ∀ e ∈ d.edges, ∀ p ∈ e.points, b.Holds p

def sides (b : Bounds) : Extrema := ⟨b.x, b.y, b.right, b.bottom⟩

end Bounds

namespace Extrema

/-- Before any shape is met. No coordinate lies farther in. -/
def initial : Extrema := ⟨2147483647, 2147483647, -2147483648, -2147483648⟩

def meet (e : Extrema) (b : Bounds) : Extrema :=
  ⟨min e.left b.x, min e.top b.y, max e.right b.right, max e.bottom b.bottom⟩

def rectangle (e : Extrema) : Bounds := ⟨e.left, e.top, e.right - e.left, e.bottom - e.top⟩

/-- The rectangle between the coordinates, unless no shape has been met. -/
def rectangle? (e : Extrema) : Option Bounds := if e.left ≤ e.right then some e.rectangle else none

/-- None of the coordinates lies outside the rectangle. -/
def Inside (e : Extrema) (b : Bounds) : Prop :=
  b.x ≤ e.left ∧ e.right ≤ b.right ∧ b.y ≤ e.top ∧ e.bottom ≤ b.bottom

end Extrema

/-- The outermost sides of several shapes; there are none without a shape. -/
def outermost? (shapes : List Bounds) : Option Extrema := do
  let left ← (shapes.map (·.x)).min?
  let top ← (shapes.map (·.y)).min?
  let right ← (shapes.map (·.right)).max?
  let bottom ← (shapes.map (·.bottom)).max?
  return ⟨left, top, right, bottom⟩

namespace Diagram

/-- The nodes and the points. -/
def shapes (d : Diagram) : List Bounds := d.nodes.map (·.bounds) ++ d.points.map Point.spot

/-- All nodes are met one after the other, and then all points. -/
def scan (d : Diagram) : Extrema :=
  d.points.foldl (fun e p => e.meet p.spot) (d.nodes.foldl (fun e n => e.meet n.bounds) .initial)

end Diagram

/-- A coordinate is a signed word of 32 bits. -/
def IsCoordinate (v : Int) : Prop := -2147483648 ≤ v ∧ v ≤ 2147483647

instance (v : Int) : Decidable (IsCoordinate v) := inferInstanceAs (Decidable (_ ∧ _))

/-- No side of the rectangle lies outside the range of coordinates. -/
structure Bounds.InRange (b : Bounds) : Prop where
  left : IsCoordinate b.x
  top : IsCoordinate b.y
  right : IsCoordinate b.right
  bottom : IsCoordinate b.bottom

namespace Bounds

variable {a b : Bounds}

theorem within_refl (b : Bounds) : b.Within b := fun _ hp => hp

theorem within_iff (ha : a.Proper) : a.Within b ↔ a.sides.Inside b := by
  obtain ⟨hwidth, hheight⟩ := ha
  constructor
  · intro h
    have hfirst : b.Holds ⟨a.x, a.y⟩ := h _ (by simp [Holds, right, bottom]; omega)
    have hlast : b.Holds ⟨a.right, a.bottom⟩ := h _ (by simp [Holds, right, bottom]; omega)
    exact ⟨hfirst.1, hlast.2.1, hfirst.2.2.1, hlast.2.2.2⟩
  · rintro ⟨hleft, hright, htop, hbottom⟩ p ⟨hp₁, hp₂, hp₃, hp₄⟩
    exact ⟨Int.le_trans hleft hp₁, Int.le_trans hp₂ hright, Int.le_trans htop hp₃,
      Int.le_trans hp₄ hbottom⟩

theorem proper_spot (p : Point) : p.spot.Proper := ⟨Int.le_refl 0, Int.le_refl 0⟩

theorem within_spot_iff {p : Point} : p.spot.Within b ↔ b.Holds p := by
  rw [within_iff (proper_spot p)]
  simp [sides, Extrema.Inside, Holds, Point.spot, right, bottom]

theorem covers_iff {d : Diagram} : b.Covers d ↔ ∀ s ∈ d.shapes, s.Within b := by
  simp only [Diagram.shapes, Diagram.points, List.forall_mem_append, List.forall_mem_map,
    List.mem_flatMap, forall_exists_index, and_imp, within_spot_iff]
  exact ⟨fun h => ⟨h.nodes, fun p e he hp => h.points e he p hp⟩,
    fun h => ⟨h.1, fun e he p hp => h.2 p e he hp⟩⟩

end Bounds

namespace Extrema

variable {e : Extrema} {b c : Bounds} {shapes : List Bounds}

theorem inside_rectangle (e : Extrema) : e.Inside e.rectangle := by
  simp only [Inside, rectangle, Bounds.right, Bounds.bottom]
  omega

theorem sides_rectangle (e : Extrema) : e.rectangle.sides = e := by
  cases e
  simp only [rectangle, Bounds.sides, Bounds.right, Bounds.bottom, mk.injEq, true_and]
  omega

/-- A shape that is met moves no coordinate farther than the shape reaches. -/
theorem inside_meet_iff : (e.meet b).Inside c ↔ e.Inside c ∧ b.sides.Inside c := by
  simp only [Inside, meet, Bounds.sides]
  omega

theorem inside_foldl_iff :
    (shapes.foldl meet e).Inside c ↔ e.Inside c ∧ ∀ s ∈ shapes, s.sides.Inside c := by
  induction shapes generalizing e with
  | nil => simp
  | cons s shapes ih => rw [List.foldl_cons, ih, inside_meet_iff, List.forall_mem_cons, and_assoc]

theorem foldl_meet (e : Extrema) (shapes : List Bounds) :
    shapes.foldl meet e =
      ⟨(shapes.map (·.x)).foldl min e.left, (shapes.map (·.y)).foldl min e.top,
        (shapes.map (·.right)).foldl max e.right, (shapes.map (·.bottom)).foldl max e.bottom⟩ := by
  induction shapes generalizing e with
  | nil => rfl
  | cons s shapes ih => exact ih (e.meet s)

theorem outermost?_cons (s : Bounds) (shapes : List Bounds) :
    outermost? (s :: shapes) = some (shapes.foldl meet s.sides) := by
  simp only [outermost?, List.map_cons, List.min?_cons', List.max?_cons', foldl_meet]
  rfl

theorem meet_initial (h : b.InRange) : initial.meet b = b.sides := by
  obtain ⟨hleft, htop, hright, hbottom⟩ := h
  simp only [IsCoordinate] at hleft htop hright hbottom
  simp only [meet, initial, Bounds.sides, mk.injEq]
  omega

end Extrema

namespace Diagram

variable {d : Diagram}

theorem extent_eq (d : Diagram) : d.extent = (outermost? d.shapes).bind Extrema.rectangle? := by
  simp [extent, outermost?, shapes, Point.spot, Bounds.right, Bounds.bottom, Extrema.rectangle?,
    Extrema.rectangle, Function.comp_def, Option.bind_assoc]

theorem shapes_eq_nil_iff : d.shapes = [] ↔ d.nodes = [] ∧ ∀ e ∈ d.edges, e.points = [] := by
  simp [shapes, points]

theorem extent_of_no_shapes (h : d.shapes = []) : d.extent = none := by
  rw [extent_eq, h]
  rfl

theorem inside_foldl_iff_within {s c : Bounds} {rest : List Bounds}
    (hproper : ∀ t ∈ s :: rest, t.Proper) :
    (rest.foldl Extrema.meet s.sides).Inside c ↔ ∀ t ∈ s :: rest, t.Within c := by
  have hsides : (∀ t ∈ s :: rest, t.sides.Inside c) ↔ ∀ t ∈ s :: rest, t.Within c :=
    forall₂_congr fun t ht => (Bounds.within_iff (hproper t ht)).symm
  rw [Extrema.inside_foldl_iff, ← hsides, List.forall_mem_cons]

/-- The extent lies in exactly those rectangles in which all shapes lie. -/
theorem exists_extent {s : Bounds} {rest : List Bounds} (hshapes : d.shapes = s :: rest)
    (hproper : ∀ t ∈ d.shapes, t.Proper) :
    ∃ b, d.extent = some b ∧ b.Proper ∧ ∀ c, b.Within c ↔ ∀ t ∈ d.shapes, t.Within c := by
  rw [hshapes] at hproper ⊢
  have hextent : d.extent = (rest.foldl Extrema.meet s.sides).rectangle? := by
    rw [extent_eq, hshapes, Extrema.outermost?_cons]
    rfl
  have hinside : ∀ c, (rest.foldl Extrema.meet s.sides).Inside c ↔ ∀ t ∈ s :: rest, t.Within c :=
    fun c => inside_foldl_iff_within hproper
  generalize rest.foldl Extrema.meet s.sides = e at hextent hinside
  -- The first shape lies between the outermost sides, so these are in the right order.
  have hfirst : s.sides.Inside e.rectangle :=
    (Bounds.within_iff (hproper s List.mem_cons_self)).mp
      ((hinside e.rectangle).mp e.inside_rectangle s List.mem_cons_self)
  have horder : e.left ≤ e.right ∧ e.top ≤ e.bottom := by
    obtain ⟨hwidth, hheight⟩ := hproper s List.mem_cons_self
    simp only [Extrema.Inside, Extrema.rectangle, Bounds.sides, Bounds.right,
      Bounds.bottom] at hfirst
    omega
  have hrectangle : e.rectangle.Proper :=
    ⟨Int.sub_nonneg_of_le horder.1, Int.sub_nonneg_of_le horder.2⟩
  refine ⟨e.rectangle, ?_, hrectangle, fun c => ?_⟩
  · rw [hextent, Extrema.rectangle?, if_pos horder.1]
  · rw [Bounds.within_iff hrectangle, e.sides_rectangle, hinside]

theorem extent_eq_scan (h : ∀ s ∈ d.shapes, s.InRange) : d.extent = d.scan.rectangle? := by
  rw [extent_eq, scan, ← List.foldl_map (f := Point.spot) (g := Extrema.meet),
    ← List.foldl_map (f := fun n : NodePlace => n.bounds) (g := Extrema.meet), ← List.foldl_append,
    ← shapes]
  cases hshapes : d.shapes with
  | nil => rfl
  | cons s rest =>
    rw [Extrema.outermost?_cons, List.foldl_cons,
      Extrema.meet_initial (h s (hshapes ▸ List.mem_cons_self))]
    rfl

/-- A diagram whose nodes have no negative sizes has an extent unless it has neither a node
nor a point. The extent has no negative size, all nodes and points lie in it, and it lies in
every rectangle in which they all lie. A scan of the nodes and points that begins at the ends
of the range of coordinates, and finds nothing if its left end is right of its right end, has
the same result, provided that all coordinates are in that range. -/
theorem extent_least (d : Diagram) (h : ∀ n ∈ d.nodes, n.bounds.Proper) :
    (d.extent = none ↔ d.nodes = [] ∧ ∀ e ∈ d.edges, e.points = []) ∧
    (∀ b, d.extent = some b → b.Proper ∧ b.Covers d ∧ ∀ c, c.Covers d → b.Within c) ∧
    ((∀ s ∈ d.shapes, s.InRange) → d.extent = d.scan.rectangle?) := by
  have hproper : ∀ t ∈ d.shapes, t.Proper := by
    simp only [shapes, List.forall_mem_append, List.forall_mem_map]
    exact ⟨h, fun p _ => Bounds.proper_spot p⟩
  refine ⟨?_, fun b hb => ?_, extent_eq_scan⟩
  · rw [← shapes_eq_nil_iff]
    refine ⟨fun hnone => ?_, extent_of_no_shapes⟩
    cases hshapes : d.shapes with
    | nil => rfl
    | cons s rest =>
      obtain ⟨b, hb, -⟩ := exists_extent hshapes hproper
      rw [hnone] at hb
      exact absurd hb (by simp)
  · cases hshapes : d.shapes with
    | nil =>
      rw [extent_of_no_shapes hshapes] at hb
      exact absurd hb (by simp)
    | cons s rest =>
      obtain ⟨b', hb', hrectangle, hwithin⟩ := exists_extent hshapes hproper
      obtain rfl : b' = b := Option.some.inj (hb'.symm.trans hb)
      refine ⟨hrectangle, ?_, fun c hc => (hwithin c).mpr (Bounds.covers_iff.mp hc)⟩
      exact Bounds.covers_iff.mpr ((hwithin b').mp b'.within_refl)

/-- An event left of the origin and a flow that leads past it, to the right and above. -/
def strayPoint : Diagram :=
  ⟨"P", [⟨"start", .startEvent, none, 0, 0, ⟨-18, 80, 36, 36⟩⟩],
    [⟨"f", "start", "start", [⟨0, 116⟩, ⟨40, 10⟩, ⟨0, 80⟩]⟩]⟩

theorem extent_strayPoint :
    (∀ n ∈ strayPoint.nodes, n.bounds.Proper) ∧
    strayPoint.extent = some ⟨-18, 10, 58, 106⟩ ∧
    Bounds.Covers ⟨-18, 10, 58, 106⟩ strayPoint ∧
    (∀ c, c.Covers strayPoint → Bounds.Within ⟨-18, 10, 58, 106⟩ c) ∧
    strayPoint.extent = strayPoint.scan.rectangle? := by
  have hproper : ∀ n ∈ strayPoint.nodes, n.bounds.Proper := by
    intro n hn
    obtain rfl := List.mem_singleton.mp hn
    exact ⟨by decide, by decide⟩
  have hrange : ∀ s ∈ strayPoint.shapes, s.InRange := by
    intro s hs
    simp only [strayPoint, shapes, points, Point.spot, List.map_cons, List.map_nil,
      List.flatMap_cons, List.flatMap_nil, List.append_nil, List.cons_append, List.nil_append,
      List.mem_cons, List.not_mem_nil, or_false] at hs
    rcases hs with rfl | rfl | rfl | rfl <;>
      exact ⟨by decide, by decide, by decide, by decide⟩
  obtain ⟨-, hleast, hscan⟩ := extent_least strayPoint hproper
  obtain ⟨-, hcovers, hwithin⟩ := hleast ⟨-18, 10, 58, 106⟩ (by decide)
  exact ⟨hproper, by decide, hcovers, hwithin, hscan hrange⟩

end Diagram

end ProcessChart
