/-!
The measures of the grid on which a process is laid out, all in pixels except
the rail bias, which is a share.
-/
namespace ProcessChart

structure Footprint where
  width : Float
  height : Float

structure LayoutSettings where
  /-- Where the middle of column zero lies. -/
  baseCenterX : Float
  columnSpacing : Float
  topMargin : Float
  rowSpacing : Float
  /-- How far a flow runs down before it turns to the side. -/
  edgeDrop : Float
  /-- The share of the vertical distance that is added to the drop. -/
  edgeRailBias : Float
  eventSize : Footprint
  taskSize : Footprint
  gatewaySize : Footprint

def LayoutSettings.standard : LayoutSettings where
  baseCenterX := 500
  columnSpacing := 260
  topMargin := 80
  rowSpacing := 140
  edgeDrop := 20
  edgeRailBias := 0.2
  eventSize := ⟨36, 36⟩
  taskSize := ⟨150, 90⟩
  gatewaySize := ⟨50, 50⟩

instance : Inhabited LayoutSettings := ⟨.standard⟩

end ProcessChart
