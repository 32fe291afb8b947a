import ProcessChart.Settings.Basic
import ProcessChart.Json5.Decode

/-!
The settings file is a JSON5 record. What it names replaces the standard
settings: first the theme, then single colours and fonts, then everything else.
The measures of the grid are replaced as a whole.
-/
namespace ProcessChart

structure ThemeFile where
  fontFamily : Option String
  fontSize : Option Float32
  primaryColor : Option String
  primaryTextColor : Option String
  primaryBorderColor : Option String
  lineColor : Option String
  background : Option String
  pendingColor : Option String
  runningColor : Option String
  successColor : Option String
  failureColor : Option String

structure CanvasFile where
  width : Option Float32
  height : Option Float32
  background : Option String
  padding : Option Float32

structure RunFile where
  baseDelay : Option Nat
  failureRate : Option Float
  seed : Option Nat

structure DraftFile where
  retries : Option Nat
  backoff : Option Nat

structure SettingsFile where
  theme : Option String
  themeVariables : Option ThemeFile
  layout : Option LayoutSettings
  canvas : Option CanvasFile
  run : Option RunFile
  draft : Option DraftFile

section Schemas

variable {σ α β : Type} [Source σ]

/-- A field that may be left out of a record or be null. -/
def optionalField (name : String) (read : σ → Except Fault α) (set : β → Option α → β) :
    Field σ β :=
  ⟨name, .optionalByName, fun v b => return set b (← Source.optional read v)⟩

def ThemeFile.schema : Schema σ ThemeFile where
  name := "ThemeVariables"
  initial := ⟨none, none, none, none, none, none, none, none, none, none, none⟩
  fields :=
    [optionalField "fontFamily" Source.string fun t v => { t with fontFamily := v },
     optionalField "fontSize" Source.float32 fun t v => { t with fontSize := v },
     optionalField "primaryColor" Source.string fun t v => { t with primaryColor := v },
     optionalField "primaryTextColor" Source.string fun t v => { t with primaryTextColor := v },
     optionalField "primaryBorderColor" Source.string fun t v => { t with primaryBorderColor := v },
     optionalField "lineColor" Source.string fun t v => { t with lineColor := v },
     optionalField "background" Source.string fun t v => { t with background := v },
     optionalField "pendingColor" Source.string fun t v => { t with pendingColor := v },
     optionalField "runningColor" Source.string fun t v => { t with runningColor := v },
     optionalField "successColor" Source.string fun t v => { t with successColor := v },
     optionalField "failureColor" Source.string fun t v => { t with failureColor := v }]

def CanvasFile.schema : Schema σ CanvasFile where
  name := "RenderConfigFile"
  initial := ⟨none, none, none, none⟩
  fields :=
    [optionalField "width" Source.float32 fun c v => { c with width := v },
     optionalField "height" Source.float32 fun c v => { c with height := v },
     optionalField "background" Source.string fun c v => { c with background := v },
     optionalField "padding" Source.float32 fun c v => { c with padding := v }]

def RunFile.schema : Schema σ RunFile where
  name := "SimulationConfigFile"
  initial := ⟨none, none, none⟩
  fields :=
    [optionalField "baseDelayMs" (Source.natural .unsigned64) fun r v => { r with baseDelay := v },
     optionalField "failureRate" Source.float64 fun r v => { r with failureRate := v },
     optionalField "seed" (Source.natural .unsigned64) fun r v => { r with seed := v }]

def DraftFile.schema : Schema σ DraftFile where
  name := "GenerationConfigFile"
  initial := ⟨none, none⟩
  fields :=
    [optionalField "retries" (Source.natural .unsigned32) fun d v => { d with retries := v },
     optionalField "backoffMs" (Source.natural .unsigned64) fun d v => { d with backoff := v }]

def SettingsFile.schema : Schema σ SettingsFile where
  name := "ConfigFile"
  initial := ⟨none, none, none, none, none, none⟩
  fields :=
    [optionalField "theme" Source.string fun f v => { f with theme := v },
     optionalField "themeVariables" ThemeFile.schema.read fun f v => { f with themeVariables := v },
     optionalField "layout" LayoutSettings.schema.read fun f v => { f with layout := v },
     optionalField "render" CanvasFile.schema.read fun f v => { f with canvas := v },
     optionalField "simulation" RunFile.schema.read fun f v => { f with run := v },
     optionalField "generation" DraftFile.schema.read fun f v => { f with draft := v }]

end Schemas

def ThemeFile.applyTo (f : ThemeFile) (t : Theme) : Theme where
  fontFamily := f.fontFamily.getD t.fontFamily
  fontSize := f.fontSize.getD t.fontSize
  primaryColor := f.primaryColor.getD t.primaryColor
  primaryTextColor := f.primaryTextColor.getD t.primaryTextColor
  primaryBorderColor := f.primaryBorderColor.getD t.primaryBorderColor
  lineColor := f.lineColor.getD t.lineColor
  background := f.background.getD t.background
  pendingColor := f.pendingColor.getD t.pendingColor
  runningColor := f.runningColor.getD t.runningColor
  successColor := f.successColor.getD t.successColor
  failureColor := f.failureColor.getD t.failureColor

def CanvasFile.applyTo (f : CanvasFile) (c : CanvasSettings) : CanvasSettings where
  width := f.width.getD c.width
  height := f.height.getD c.height
  background := f.background.getD c.background
  padding := f.padding.getD c.padding

def RunFile.applyTo (f : RunFile) (r : RunSettings) : RunSettings where
  baseDelay := f.baseDelay.getD r.baseDelay
  failureRate := f.failureRate.getD r.failureRate
  seed := f.seed.or r.seed

def DraftFile.applyTo (f : DraftFile) (d : DraftSettings) : DraftSettings where
  retries := f.retries.getD d.retries
  backoff := f.backoff.getD d.backoff

/-- Naming a theme resets the background of the canvas, also when there is no such theme. -/
def Settings.withTheme (s : Settings) (name : String) : Settings :=
  let theme := (Theme.named? name).getD s.theme
  { s with theme := theme, canvas := { s.canvas with background := theme.background } }

/-- A background among the theme variables is also that of the canvas. -/
def Settings.withVariables (s : Settings) (f : ThemeFile) : Settings :=
  { s with
    theme := f.applyTo s.theme
    canvas := { s.canvas with background := f.background.getD s.canvas.background } }

def SettingsFile.settings (f : SettingsFile) : Settings :=
  let themed := (f.theme.map Settings.standard.withTheme).getD .standard
  let varied := (f.themeVariables.map themed.withVariables).getD themed
  { theme := varied.theme
    layout := f.layout.getD varied.layout
    canvas := (f.canvas.map (·.applyTo varied.canvas)).getD varied.canvas
    run := (f.run.map (·.applyTo varied.run)).getD varied.run
    draft := (f.draft.map (·.applyTo varied.draft)).getD varied.draft }

inductive SettingsError where
  /-- The text is not JSON5. -/
  | notJson5
  | invalid (fault : Fault)

def SettingsError.message : SettingsError → String
  | notJson5 => "not a JSON5 text"
  | invalid fault => fault.message Json5.wording

def Settings.ofText (text : String) : Except SettingsError Settings :=
  match Json5.parse? text.toList with
  | none => .error .notJson5
  | some j =>
    match SettingsFile.schema.read j with
    | .ok file => .ok file.settings
    | .error fault => .error (.invalid fault)

end ProcessChart
