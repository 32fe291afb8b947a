import ProcessChart.Layout.Diagram
import ProcessChart.Json.Printer

/-!
The layout dump is a diagram as JSON, with its depth, its outermost columns and
its size in front.
-/
namespace ProcessChart

def Point.toJson (p : Point) : Json := .array [.int p.x, .int p.y]

def NodePlace.toJson (n : NodePlace) : Json :=
  .object
    [("id", .string n.id), ("kind", .string n.kind.elementName),
     ("label", .optionalString n.label), ("level", .nat n.level), ("column", .int n.column),
     ("x", .int n.bounds.x), ("y", .int n.bounds.y), ("width", .int n.bounds.width),
     ("height", .int n.bounds.height)]

def EdgeRoute.toJson (e : EdgeRoute) : Json :=
  .object
    [("id", .string e.id), ("from", .string e.source), ("to", .string e.target),
     ("points", .array (e.points.map Point.toJson))]

namespace Diagram

/-- The count of levels down to the deepest node. -/
def depth (d : Diagram) : Nat := ((d.nodes.map (·.level + 1)).max?).getD 0

def leftColumn (d : Diagram) : Int := ((d.nodes.map (·.column)).min?).getD 0

def rightColumn (d : Diagram) : Int := ((d.nodes.map (·.column)).max?).getD 0

def size (d : Diagram) : Int × Int :=
  match d.extent with
  | some b => (b.width, b.height)
  | none => (0, 0)

def toJson (d : Diagram) : Json :=
  .object
    [("process", .string d.processId), ("depth", .nat d.depth),
     ("columns", .array [.int d.leftColumn, .int d.rightColumn]),
     ("width", .int d.size.1), ("height", .int d.size.2),
     ("nodes", .array (d.nodes.map NodePlace.toJson)),
     ("edges", .array (d.edges.map EdgeRoute.toJson))]

def dump (d : Diagram) : String := d.toJson.print .pretty

end Diagram

end ProcessChart
