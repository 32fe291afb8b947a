import ProcessChart.Layout.Diagram
import ProcessChart.Settings.Theme
import ProcessChart.Settings.Canvas
import ProcessChart.Picture.Label
import ProcessChart.Markup.Piece
import ProcessChart.Decimal.Fixed
import ProcessChart.Table

/-!
The picture of a diagram: flows as polylines with an arrow, events as circles,
tasks as boxes, gateways as diamonds with a cross, and labels in or under them.
If the statuses of a run are given, nodes are bordered in their colours.
Positions that need not be whole are computed in single precision.
-/
namespace ProcessChart.Picture

open Markup

/-- The height of a line of text, as a multiple of the font size. -/
def lineHeight : Float32 := 1.3

/-- The mean width of a character, as a multiple of the font size. -/
def charWidth : Float32 := 0.6

/-- The longest line of a label under an event or gateway. -/
def outerLineLimit : Nat := 24

def single (i : Int) : Float32 := (Int32.ofInt i).toFloat32

/-- The greater of the two; what is no number loses. -/
def atLeast (low x : Float32) : Float32 := if low < x then x else low

def tenths (x : Float32) : List Char := Decimal.fixed 1 (Decimal.binary32 x)

def rounded (x : Float32) : List Char := Decimal.fixed 0 (Decimal.binary32 x)

def plain (x : Float32) : List Char := Decimal.plain .single (Decimal.binary32 x)

def centreX (b : Bounds) : Float32 := single b.x + single b.width / 2

def centreY (b : Bounds) : Float32 := single b.y + single b.height / 2

/-- Lines of text, centred on a point. -/
def textPieces (t : Theme) (x y : Float32) (lines : List String) : List Piece :=
  let step := t.fontSize * lineHeight
  let top := y - (UInt64.ofNat lines.length).toFloat32 * step / 2 + t.fontSize
  let line (index : Nat) (content : String) : List Piece :=
    [.opening "tspan" [⟨"x", tenths x⟩, ⟨"dy", tenths (if index = 0 then 0 else step)⟩],
     escapedText content,
     .closing "tspan"]
  [.opening "text"
    [⟨"x", tenths x⟩, ⟨"y", tenths top⟩, .verbatim "text-anchor" "middle",
     .verbatim "font-family" t.fontFamily, ⟨"font-size", plain t.fontSize⟩,
     .verbatim "fill" t.primaryTextColor]] ++
  (lines.mapIdx line).flatten ++ [.closing "text"]

def circlePiece (t : Theme) (b : Bounds) (stroke width : String) : Piece :=
  .single "circle"
    [⟨"cx", tenths (centreX b)⟩, ⟨"cy", tenths (centreY b)⟩,
     ⟨"r", tenths (single (min b.width b.height) / 2)⟩,
     .verbatim "fill" t.primaryColor, .verbatim "stroke" stroke,
     .verbatim "stroke-width" width]

def boxPiece (t : Theme) (b : Bounds) (stroke : String) : Piece :=
  .single "rect"
    [.integer "x" b.x, .integer "y" b.y, .integer "width" b.width, .integer "height" b.height,
     .verbatim "rx" "10", .verbatim "ry" "10", .verbatim "fill" t.primaryColor,
     .verbatim "stroke" stroke, .verbatim "stroke-width" "2"]

/-- The corners of the diamond, from the top to the right. -/
def diamondPoints (b : Bounds) : List Char :=
  let x := tenths (centreX b)
  let y := tenths (centreY b)
  x ++ [','] ++ Decimal.integer b.y ++ [' '] ++ Decimal.integer b.right ++ [','] ++ y ++
  [' '] ++ x ++ [','] ++ Decimal.integer b.bottom ++ [' '] ++ Decimal.integer b.x ++ [','] ++ y

def segment (x₁ y₁ x₂ y₂ : Float32) : List Char :=
  "M ".toList ++ tenths x₁ ++ [' '] ++ tenths y₁ ++ " L ".toList ++ tenths x₂ ++ [' '] ++ tenths y₂

def diamondPieces (t : Theme) (b : Bounds) (stroke : String) : List Piece :=
  let x := centreX b
  let y := centreY b
  let arm := single (min b.width b.height) / 6
  let cross :=
    segment (x - arm) (y - arm) (x + arm) (y + arm) ++ [' '] ++
    segment (x + arm) (y - arm) (x - arm) (y + arm)
  [.single "polygon"
    [⟨"points", diamondPoints b⟩, .verbatim "fill" t.primaryColor, .verbatim "stroke" stroke,
     .verbatim "stroke-width" "2"],
   .single "path"
    [⟨"d", cross⟩, .verbatim "stroke" t.primaryBorderColor, .verbatim "stroke-width" "3"]]

def shapePieces (t : Theme) (kind : NodeKind) (b : Bounds) (stroke : String) : List Piece :=
  match kind with
  | .startEvent => [circlePiece t b stroke "2"]
  | .endEvent => [circlePiece t b stroke "4"]
  | .task => [boxPiece t b stroke]
  | .exclusiveGateway => diamondPieces t b stroke

/-- As many characters as fit between the sides of a box, and at least one. -/
def innerLineLimit (t : Theme) (b : Bounds) : Nat :=
  (atLeast 1 ((single b.width - 12) / (t.fontSize * charWidth))).toUInt64.toNat

/-- The label of a task stands in its middle, any other label below its node. -/
def labelPieces (t : Theme) (n : NodePlace) : List Piece :=
  let b := n.bounds
  match n.label with
  | none => []
  | some label =>
    if label = "" then []
    else if n.kind = .task then
      textPieces t (centreX b) (centreY b) (wrap (innerLineLimit t b) label)
    else
      let lines := wrap outerLineLimit label
      let height := (UInt64.ofNat lines.length).toFloat32 * t.fontSize * lineHeight
      textPieces t (centreX b) (single b.bottom + 4 + height / 2) lines

def nodePieces (t : Theme) (status? : Option RunStatus) (n : NodePlace) : List Piece :=
  let stroke := (status?.map t.statusColor).getD t.primaryBorderColor
  let statusAttribute := status?.toList.map fun s => Attribute.verbatim "data-status" s.name
  [.opening "g" (.escaped "data-element" n.id :: statusAttribute)] ++
  shapePieces t n.kind n.bounds stroke ++ labelPieces t n ++ [.closing "g"]

def pointsText (points : List Point) : List Char :=
  [' '].intercalate (points.map fun p => Decimal.integer p.x ++ [','] ++ Decimal.integer p.y)

def edgePiece (t : Theme) (e : EdgeRoute) : Piece :=
  .single "polyline"
    [.escaped "data-flow" e.id, ⟨"points", pointsText e.points⟩, .verbatim "fill" "none",
     .verbatim "stroke" t.lineColor, .verbatim "stroke-width" "1.5",
     .verbatim "marker-end" "url(#arrow)"]

def arrowPieces (t : Theme) : List Piece :=
  [.opening "defs" [],
   .opening "marker"
    [.verbatim "id" "arrow", .verbatim "viewBox" "0 0 10 10", .verbatim "refX" "10",
     .verbatim "refY" "5", .verbatim "markerWidth" "8", .verbatim "markerHeight" "8",
     .verbatim "orient" "auto-start-reverse"],
   .single "path" [.verbatim "d" "M 0 0 L 10 5 L 0 10 z", .verbatim "fill" t.lineColor],
   .closing "marker",
   .closing "defs"]

/-- The part of the plane that the picture shows. -/
structure Frame where
  x : Float32
  y : Float32
  width : Float32
  height : Float32

/-- The extent with the padding around it, room for labels below it, and a least size. -/
def frame (d : Diagram) (t : Theme) (c : CanvasSettings) : Frame :=
  let extent := d.extent.getD ⟨0, 0, 0, 0⟩
  let labelRoom := t.fontSize * lineHeight * 2
  { x := single extent.x - c.padding
    y := single extent.y - c.padding
    width := atLeast 200 (single extent.width + c.padding * 2)
    height := atLeast 200 (single extent.height + c.padding * 2 + labelRoom) }

def pieces (d : Diagram) (t : Theme) (c : CanvasSettings) (statuses : Table RunStatus) :
    List Piece :=
  let f := frame d t c
  let viewBox :=
    rounded f.x ++ [' '] ++ rounded f.y ++ [' '] ++ rounded f.width ++ [' '] ++ rounded f.height
  [.opening "svg"
    [.verbatim "xmlns" "http://www.w3.org/2000/svg", ⟨"width", rounded f.width⟩,
     ⟨"height", rounded f.height⟩, ⟨"viewBox", viewBox⟩],
   .single "rect"
    [⟨"x", rounded f.x⟩, ⟨"y", rounded f.y⟩, .verbatim "width" "100%",
     .verbatim "height" "100%", .verbatim "fill" c.background]] ++
  arrowPieces t ++ d.edges.map (edgePiece t) ++
  d.nodes.flatMap (fun n => nodePieces t (statuses.get? n.id) n) ++ [.closing "svg"]

def svg (d : Diagram) (t : Theme) (c : CanvasSettings) (statuses : Table RunStatus) : String :=
  String.ofList (writePieces "/>" (pieces d t c statuses))

end ProcessChart.Picture
