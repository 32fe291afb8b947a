import ProcessChart.Record.Schema

/-!
The canvas of a picture: the size it is drawn in when the picture itself names
none, the colour behind everything, and the space around the diagram.
-/
namespace ProcessChart

structure CanvasSettings where
  width : Float32
  height : Float32
  background : String
  padding : Float32

namespace CanvasSettings

def standard : CanvasSettings where
  width := 1200
  height := 800
  background := "#FFFFFF"
  padding := 40

variable {σ : Type} [Source σ]

def schema : Schema σ CanvasSettings where
  name := "RenderConfig"
  initial := standard
  fields :=
    [⟨"width", .optional, fun v s => return { s with width := ← Source.float32 v }⟩,
     ⟨"height", .optional, fun v s => return { s with height := ← Source.float32 v }⟩,
     ⟨"background", .optional, fun v s => return { s with background := ← Source.string v }⟩,
     ⟨"padding", .optional, fun v s => return { s with padding := ← Source.float32 v }⟩]

end CanvasSettings

end ProcessChart
