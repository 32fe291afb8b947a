import ProcessChart.Compiled
import ProcessChart.Layout.Dump
import ProcessChart.Picture.Svg
import ProcessChart.ProcessGraph.Reading
import ProcessChart.Settings.Basic

/-!
From the text of a process to one of its written forms.
-/
namespace ProcessChart

inductive WrittenForm where
  | bpmn
  | svg
  | layout
deriving DecidableEq, Repr

inductive RenderError where
  | reading (error : ReadingError)
  | compile (error : CompileError)

def RenderError.message : RenderError → String
  | reading error => error.message
  | compile error => error.message

/-- A picture shows no run. -/
def Compiled.write (c : Compiled) (s : Settings) : WrittenForm → String
  | .bpmn => c.document
  | .svg => Picture.svg c.diagram s.theme s.canvas .empty
  | .layout => c.diagram.dump

def renderText (text : String) (s : Settings) (form : WrittenForm) : Except RenderError String := do
  let p ← (ProcessGraph.ofText text).mapError .reading
  let c ← (p.compile s.layout).mapError .compile
  return c.write s form

end ProcessChart
