import ProcessChart.Markup.Reading
import ProcessChart.Picture.Svg

/-!
Drawing a picture in pixels: whether it can be drawn, and how large it is. The
picture must be a document, because texts of the theme stand in it as they are.
Its size is that of its frame; a frame without end takes the canvas in its
place, and then everything that is drawn has to fit.
-/
namespace ProcessChart.Picture

inductive DrawingFault where
  | unreadable (misreading : Markup.Misreading) (svg : List Char)
  | tooLarge

def DrawingFault.message : DrawingFault → String
  | unreadable misreading svg => "SVG data parsing failed cause " ++ misreading.message svg
  | tooLarge => "Failed to allocate pixmap"

structure Size where
  width : Nat
  height : Nat
deriving DecidableEq, Repr

/-- The whole number that is written for a position in the picture. -/
def writtenNumber (x : Float32) : Float32 :=
  let size := (UInt64.ofNat (Decimal.value ((rounded x).filter Decimal.isDigit))).toFloat32
  if x < 0 then -size else size

/-- At least one pixel, a part of a pixel counting as one. -/
def pixels (x : Float32) : Nat := max 1 (min x.ceil.toUInt64.toNat 0xFFFFFFFF)

def isSide (x : Float32) : Bool := x.isFinite && 0 < x

/-- The sides of the canvas, when both of them can be sides. -/
def canvasSides (c : CanvasSettings) : Float32 × Float32 :=
  if isSide c.width && isSide c.height then (c.width, c.height) else (100, 100)

/-- Where a background that begins at `start` ends, or what is drawn if it reaches farther. -/
def reach (start side : Float32) (far : Int) : Float32 :=
  let finish := (if start.isFinite then writtenNumber start else 0) + side
  if finish < single far then single far else finish

def drawnSize (d : Diagram) (t : Theme) (c : CanvasSettings) : Size :=
  let f := frame d t c
  if f.width.isFinite && f.height.isFinite then
    ⟨pixels (writtenNumber f.width), pixels (writtenNumber f.height)⟩
  else
    let extent := d.extent.getD ⟨0, 0, 0, 0⟩
    let canvas := canvasSides c
    let width := if f.width.isFinite then writtenNumber f.width else canvas.1
    let height := if f.height.isFinite then writtenNumber f.height else canvas.2
    ⟨pixels (reach f.x width extent.right), pixels (reach f.y height extent.bottom)⟩

/-- The bytes of a row of pixels, four for each, are counted in a signed word of 32 bits. -/
def Size.fits (s : Size) : Bool := 4 * s.width ≤ 0x7FFFFFFF

/-- The size of the drawing, if the picture can be drawn. -/
def draw (d : Diagram) (t : Theme) (c : CanvasSettings) : Except DrawingFault Size :=
  let markup := (svg d t c .empty).toList
  match Markup.readDocument markup with
  | .error misreading => .error (.unreadable misreading markup)
  | .ok () =>
    let size := drawnSize d t c
    if size.fits then .ok size else .error .tooLarge

end ProcessChart.Picture
