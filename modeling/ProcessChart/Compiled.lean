import ProcessChart.Layout.Place
import ProcessChart.Bpmn.Document

/-!
Compiling a process: a valid process is laid out and written as a BPMN document.
-/
namespace ProcessChart

structure Compiled where
  diagram : Diagram
  document : String

inductive CompileError where
  | invalid (defects : List Defect)
  | layout (missing : MissingBounds)

def CompileError.message : CompileError → String
  | invalid defects => "process is invalid: " ++ "; ".intercalate (defects.map Defect.message)
  | layout missing => missing.message

/-- A process with defects is never laid out. -/
def ProcessGraph.compile (p : ProcessGraph) (s : LayoutSettings) : Except CompileError Compiled :=
  if p.isValid then
    match p.layOut s with
    | .ok d => .ok ⟨d, Bpmn.document p d⟩
    | .error missing => .error (.layout missing)
  else .error (.invalid p.defects)

end ProcessChart
