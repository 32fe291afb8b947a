import ProcessChart.Layout.Levels
import ProcessChart.Layout.Columns
import ProcessChart.Layout.Grid
import ProcessChart.Layout.Route

/-!
Laying out a process: every node gets the rectangle of its level and column,
then every flow is routed. The only failure is a flow with an end that is no
node, which a valid process does not have.
-/
namespace ProcessChart

/-- The flow names a node that has no rectangle. -/
structure MissingBounds where
  flow : String
  node : String
deriving DecidableEq, Repr

def MissingBounds.message (e : MissingBounds) : String :=
  "flow " ++ e.flow ++ " references node " ++ e.node ++ ", which has no bounds"

namespace ProcessGraph

def placeNode (s : LayoutSettings) (levels : Table Nat) (columns : Table Int) (n : Node) :
    NodePlace :=
  let level := (levels.get? n.id).getD 0
  let column := (columns.get? n.id).getD 0
  ⟨n.id, n.kind, n.label, level, column, s.nodeBounds n.kind level column⟩

def placeNodes (p : ProcessGraph) (s : LayoutSettings) : List NodePlace :=
  p.nodes.map (placeNode s (p.levels p.startId?) (p.columns p.startId?))

/-- Flows attach to the last of several nodes with one id. -/
def boundsOf (places : List NodePlace) (flow node : String) : Except MissingBounds Bounds :=
  match places.reverse.find? (·.id = node) with
  | some place => .ok place.bounds
  | none => .error ⟨flow, node⟩

def routeFlow (s : LayoutSettings) (places : List NodePlace) (f : Flow) :
    Except MissingBounds EdgeRoute := do
  let source ← boundsOf places f.id f.source
  let target ← boundsOf places f.id f.target
  return ⟨f.id, f.source, f.target, s.route source target⟩

/-- The first flow that cannot be routed decides the failure. -/
def layOut (p : ProcessGraph) (s : LayoutSettings) : Except MissingBounds Diagram := do
  let places := p.placeNodes s
  let edges ← p.flows.mapM (routeFlow s places)
  return ⟨p.id, places, edges⟩

end ProcessGraph

end ProcessChart
