import ProcessChart.ProcessGraph.Basic

/-!
A laid out process: every node has a rectangle on the grid and every flow a
polyline. Coordinates are whole pixels, to the right and downwards.
-/
namespace ProcessChart

structure Point where
  x : Int
  y : Int
deriving DecidableEq, Repr

/-- A rectangle, given by its top left corner. -/
structure Bounds where
  x : Int
  y : Int
  width : Int
  height : Int
deriving DecidableEq, Repr

structure NodePlace where
  id : String
  kind : NodeKind
  label : Option String
  level : Nat
  column : Int
  bounds : Bounds
deriving DecidableEq, Repr

structure EdgeRoute where
  id : String
  source : String
  target : String
  points : List Point
deriving DecidableEq, Repr

structure Diagram where
  processId : String
  nodes : List NodePlace
  edges : List EdgeRoute
deriving DecidableEq, Repr

/-- The nearest coordinate that a signed word of 32 bits holds. -/
def clampCoordinate (v : Int) : Int := max (-2147483648) (min v 2147483647)

/-- Rounds to the nearest whole pixel, a half upwards; what is no number becomes zero. -/
def pixel (v : Float) : Int := (v + 0.5).floor.toInt32.toInt

namespace Bounds

/-- The middle of the rectangle, a half pixel rounded to the right. -/
def centerX (b : Bounds) : Int := clampCoordinate (b.x + (b.width + 1).fdiv 2)

def right (b : Bounds) : Int := b.x + b.width

def bottom (b : Bounds) : Int := b.y + b.height

/-- Flows leave at the middle of the bottom side. -/
def exit (b : Bounds) : Point := ⟨b.centerX, b.bottom⟩

/-- Flows enter at the middle of the top side. -/
def entry (b : Bounds) : Point := ⟨b.centerX, b.y⟩

end Bounds

namespace Diagram

def node? (d : Diagram) (id : String) : Option NodePlace := d.nodes.find? (·.id = id)

def edge? (d : Diagram) (id : String) : Option EdgeRoute := d.edges.find? (·.id = id)

def points (d : Diagram) : List Point := d.edges.flatMap (·.points)

/-- The smallest rectangle around all nodes and points; there is none when the
leftmost coordinate lies right of the rightmost. -/
def extent (d : Diagram) : Option Bounds := do
  let left ← (d.nodes.map (·.bounds.x) ++ d.points.map (·.x)).min?
  let top ← (d.nodes.map (·.bounds.y) ++ d.points.map (·.y)).min?
  let right ← (d.nodes.map (·.bounds.right) ++ d.points.map (·.x)).max?
  let bottom ← (d.nodes.map (·.bounds.bottom) ++ d.points.map (·.y)).max?
  if left ≤ right then some ⟨left, top, right - left, bottom - top⟩ else none

end Diagram

end ProcessChart
