import ProcessChart.Layout.Diagram
import ProcessChart.Layout.Settings

/-!
The rectangle of a node follows from its kind, level and column. It is centred
on its column, so nodes of different widths in one column stay aligned.
-/
namespace ProcessChart.LayoutSettings

def footprint (s : LayoutSettings) : NodeKind → Footprint
  | .task => s.taskSize
  | .exclusiveGateway => s.gatewaySize
  | .startEvent => s.eventSize
  | .endEvent => s.eventSize

def columnCenter (s : LayoutSettings) (column : Int) : Float :=
  s.baseCenterX + Float.ofInt column * s.columnSpacing

def rowTop (s : LayoutSettings) (level : Nat) : Float :=
  s.topMargin + Float.ofNat level * s.rowSpacing

def nodeBounds (s : LayoutSettings) (kind : NodeKind) (level : Nat) (column : Int) : Bounds :=
  let size := s.footprint kind
  { x := pixel (s.columnCenter column - size.width / 2)
    y := pixel (s.rowTop level)
    width := pixel size.width
    height := pixel size.height }

end ProcessChart.LayoutSettings
