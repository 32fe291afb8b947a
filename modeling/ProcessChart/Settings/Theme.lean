import ProcessChart.Run.Status

/-!
The look of a picture: its font and its colours. Colours and fonts are kept as
they are written in the picture.
-/
namespace ProcessChart

structure Theme where
  fontFamily : String
  fontSize : Float32
  primaryColor : String
  primaryTextColor : String
  primaryBorderColor : String
  lineColor : String
  background : String
  pendingColor : String
  runningColor : String
  successColor : String
  failureColor : String

namespace Theme

def bpmn : Theme where
  fontFamily := "Arial, sans-serif"
  fontSize := 12
  primaryColor := "#FFFFFF"
  primaryTextColor := "#000000"
  primaryBorderColor := "#000000"
  lineColor := "#000000"
  background := "#FFFFFF"
  pendingColor := "#9CA3AF"
  runningColor := "#2563EB"
  successColor := "#16A34A"
  failureColor := "#DC2626"

def modern : Theme where
  fontFamily := "Inter, Segoe UI, system-ui, -apple-system, sans-serif"
  fontSize := 13
  primaryColor := "#F8FAFF"
  primaryTextColor := "#1C2430"
  primaryBorderColor := "#C7D2E5"
  lineColor := "#7A8AA6"
  background := "#FFFFFF"
  pendingColor := "#A0AEC0"
  runningColor := "#4C6EF5"
  successColor := "#2F9E44"
  failureColor := "#E03131"

/-- The bordering colour of a node with this status. -/
def statusColor (t : Theme) : RunStatus → String
  | .pending => t.pendingColor
  | .running => t.runningColor
  | .success => t.successColor
  | .failure => t.failureColor

/-- The theme with this name. -/
def named? : String → Option Theme
  | "modern" => some modern
  | "base" => some bpmn
  | "default" => some bpmn
  | "bpmn" => some bpmn
  | _ => none

variable {σ : Type} [Source σ]

def schema : Schema σ Theme where
  name := "Theme"
  initial := bpmn
  fields :=
    [⟨"font_family", .required, fun v t => return { t with fontFamily := ← Source.string v }⟩,
     ⟨"font_size", .required, fun v t => return { t with fontSize := ← Source.float32 v }⟩,
     ⟨"primary_color", .required, fun v t => return { t with primaryColor := ← Source.string v }⟩,
     ⟨"primary_text_color", .required,
      fun v t => return { t with primaryTextColor := ← Source.string v }⟩,
     ⟨"primary_border_color", .required,
      fun v t => return { t with primaryBorderColor := ← Source.string v }⟩,
     ⟨"line_color", .required, fun v t => return { t with lineColor := ← Source.string v }⟩,
     ⟨"background", .required, fun v t => return { t with background := ← Source.string v }⟩,
     ⟨"pending_color", .required, fun v t => return { t with pendingColor := ← Source.string v }⟩,
     ⟨"running_color", .required, fun v t => return { t with runningColor := ← Source.string v }⟩,
     ⟨"success_color", .required, fun v t => return { t with successColor := ← Source.string v }⟩,
     ⟨"failure_color", .required, fun v t => return { t with failureColor := ← Source.string v }⟩]

end Theme

end ProcessChart
