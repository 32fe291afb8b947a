import ProcessChart.Layout.Settings
import ProcessChart.Record.Schema

/-!
Reading the measures of the grid. A footprint needs both its sides; of the other
measures any may be left out.
-/
namespace ProcessChart

variable {σ : Type} [Source σ]

def Footprint.schema : Schema σ Footprint where
  name := "Footprint"
  initial := ⟨0, 0⟩
  fields :=
    [⟨"width", .required, fun v f => return { f with width := ← Source.float64 v }⟩,
     ⟨"height", .required, fun v f => return { f with height := ← Source.float64 v }⟩]

def LayoutSettings.schema : Schema σ LayoutSettings where
  name := "LayoutConfig"
  initial := .standard
  fields :=
    [⟨"baseCenterX", .optional, fun v s => return { s with baseCenterX := ← Source.float64 v }⟩,
     ⟨"columnSpacing", .optional, fun v s => return { s with columnSpacing := ← Source.float64 v }⟩,
     ⟨"topMargin", .optional, fun v s => return { s with topMargin := ← Source.float64 v }⟩,
     ⟨"rowSpacing", .optional, fun v s => return { s with rowSpacing := ← Source.float64 v }⟩,
     ⟨"edgeDrop", .optional, fun v s => return { s with edgeDrop := ← Source.float64 v }⟩,
     ⟨"edgeRailBias", .optional, fun v s => return { s with edgeRailBias := ← Source.float64 v }⟩,
     ⟨"eventSize", .optional,
      fun v s => return { s with eventSize := ← Footprint.schema.read v }⟩,
     ⟨"taskSize", .optional, fun v s => return { s with taskSize := ← Footprint.schema.read v }⟩,
     ⟨"gatewaySize", .optional,
      fun v s => return { s with gatewaySize := ← Footprint.schema.read v }⟩]

end ProcessChart
