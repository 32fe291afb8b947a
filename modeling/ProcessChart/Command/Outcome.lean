import ProcessChart.Command.Options
import ProcessChart.Rendering
import ProcessChart.Picture.Drawing
import ProcessChart.Draft.Attempts
import ProcessChart.Run.Demo
import ProcessChart.Run.Log
import ProcessChart.Settings.File

/-!
What the command does, given what it reads: its exit code, what it prints, and
the file it leaves behind. The texts of settings and process come from outside,
as does the time of the clock, and so does the fault when one of them cannot be
read.
-/
namespace ProcessChart.Command

/-- A fault of the file system, by its message. -/
structure FileFault where
  message : String
deriving DecidableEq, Repr

def FileFault.notFound : FileFault := ⟨"No such file or directory (os error 2)"⟩

def FileFault.isFolder : FileFault := ⟨"Is a directory (os error 21)"⟩

def FileFault.notFolder : FileFault := ⟨"Not a directory (os error 20)"⟩

def FileFault.nameTooLong : FileFault := ⟨"File name too long (os error 36)"⟩

def FileFault.notText : FileFault := ⟨"stream did not contain valid UTF-8"⟩

inductive Content where
  | text (text : String)
  /-- A picture of this size in pixels, drawn from the markup. -/
  | picture (width height : Nat) (svg : String)

structure Outcome where
  exitCode : Nat
  out : String
  err : String
  file : Option (String × Content)

namespace Outcome

def printed (text : String) : Outcome := ⟨0, text, "", none⟩

def failed (message : String) : Outcome := ⟨1, "", "error: " ++ message ++ "\n", none⟩

def refused : Refusal → Outcome
  | .help => ⟨0, "", "", none⟩
  | .version => printed "bpmnr 0.1.0\n"
  | .usage => ⟨2, "", "", none⟩

/-- Without a file the text is printed, with a line end behind it if it has to have one. -/
def delivered (file? : Option String) (lineEnd text : String) : Outcome :=
  match file? with
  | some path => ⟨0, "", "", some (path, .text text)⟩
  | none => printed (text ++ lineEnd)

/-- The outcome when its file could not be written. -/
def withWriteFault (fault : FileFault) : Outcome := failed fault.message

end Outcome

/-- What the command reads. The process text is not needed when there is a prompt. -/
structure Surroundings where
  settings : Except FileFault String
  process : Except FileFault String
  /-- Milliseconds since the epoch. -/
  clock : Nat
  /-- The seed of a run without a seed. -/
  clockSeed : Nat

namespace Options

def settingsFrom (o : Options) (s : Surroundings) : Except String Settings := do
  if o.settings.isSome then
    let text ← s.settings.mapError (·.message)
    let settings ← (Settings.ofText text).mapError (·.message)
    return o.applyTo settings
  else return o.applyTo .standard

/-- The process, and what is told about its draft if it was drafted. -/
def processFrom (o : Options) (settings : Settings) (s : Surroundings) :
    Except String (ProcessGraph × Option DraftReport) :=
  match o.prompt with
  | some prompt => do
    let provider := Provider.offline prompt
    let attempts := provider.attempts settings.draft
    let process ← attempts.result.mapError (·.message)
    return (process, some (attempts.report provider.name))
  | none => do
    let text ← s.process.mapError (·.message)
    let process ← (ProcessGraph.ofText text).mapError (·.message)
    return (process, none)

/-- One line for every defect. -/
def defectLines (defects : List Defect) : String :=
  String.join (defects.map fun d => "- " ++ d.message ++ "\n")

def checked (p : ProcessGraph) : Outcome :=
  let defects := p.defects
  if defects.isEmpty then .printed (p.id ++ ": valid\n")
  else
    { Outcome.failed (Decimal.natText defects.length ++ " validation error(s)") with
      out := defectLines defects }

def rejected (p : ProcessGraph) : CompileError → Outcome
  | .invalid defects =>
    let message := "process " ++ p.id ++ " is invalid (" ++ Decimal.natText defects.length ++
      " error(s))"
    { Outcome.failed message with err := defectLines defects ++ (Outcome.failed message).err }
  | .layout missing => .failed missing.message

/-- The log of a run that nothing stops, with the times of the clock. -/
def runLog (p : ProcessGraph) (settings : RunSettings) (s : Surroundings) : RunLog :=
  let outcome := settings.run (settings.draws s.clockSeed) (fun _ => false) p.nodeIds
  ⟨outcome.events.map fun e => { e with time := s.clock + e.time }⟩

def pictured (o : Options) (settings : Settings) (c : Compiled) : Outcome :=
  match o.output with
  | none => .failed "Output path required for png output"
  | some path =>
    match Picture.draw c.diagram settings.theme settings.canvas with
    | .ok size =>
      ⟨0, "", "", some (path, .picture size.width size.height (c.write settings .svg))⟩
    | .error fault => .failed fault.message

def written (o : Options) (settings : Settings) (c : Compiled) : Outcome :=
  match o.format with
  | .bpmn => .delivered o.output "\n" (c.write settings .bpmn)
  | .svg => .delivered o.output "" (c.write settings .svg)
  | .layout => .delivered o.output "\n" (c.write settings .layout)
  | .png => o.pictured settings c

def execute (o : Options) (s : Surroundings) : Outcome :=
  match o.settingsFrom s with
  | .error message => .failed message
  | .ok settings =>
    match o.processFrom settings s with
    | .error message => .failed message
    | .ok (p, report) =>
      if o.validate then checked p
      else
        match p.compile settings.layout with
        | .error e => rejected p e
        | .ok c =>
          if o.simulate then
            .delivered o.output "\n" ((runLog p settings.run s).print report)
          else o.written settings c

end Options

end ProcessChart.Command
