import ProcessChart.Settings.Theme
import ProcessChart.Settings.Measures
import ProcessChart.Settings.Canvas
import ProcessChart.Run.Settings
import ProcessChart.Draft.Settings

/-!
All settings of the program.
-/
namespace ProcessChart

structure Settings where
  theme : Theme
  layout : LayoutSettings
  canvas : CanvasSettings
  run : RunSettings
  draft : DraftSettings

/-- The canvas has the background of the theme. -/
def Settings.standard : Settings where
  theme := .bpmn
  layout := .standard
  canvas := { CanvasSettings.standard with background := Theme.bpmn.background }
  run := .standard
  draft := .standard

end ProcessChart
