import ProcessChart.Decimal.Reading
import ProcessChart.Settings.Basic

/-!
The command line. Options have a long name, most also a letter; letters may be
run together, and a value may be attached to its option or follow it. An option
is given at most once, and what begins like an option is not taken for a value.
Arguments are read in order, so that a request for help or for the version wins
over mistakes behind it but not over those before it.
-/
namespace ProcessChart.Command

inductive Format where
  | bpmn
  | svg
  | png
  | layout
deriving DecidableEq, Repr

def Format.ofName? : String → Option Format
  | "bpmn" => some bpmn
  | "svg" => some svg
  | "png" => some png
  | "layout" => some layout
  | _ => none

structure Options where
  input : Option String
  prompt : Option String
  output : Option String
  format : Format
  settings : Option String
  validate : Bool
  simulate : Bool
  baseDelay : Option Nat
  failureRate : Option Float
  seed : Option Nat
  width : Option Float32
  height : Option Float32
  verbose : Bool

def Options.standard : Options where
  input := none
  prompt := none
  output := none
  format := .bpmn
  settings := none
  validate := false
  simulate := false
  baseDelay := none
  failureRate := none
  seed := none
  width := none
  height := none
  verbose := false

inductive Name where
  | input
  | prompt
  | output
  | format
  | settings
  | validate
  | simulate
  | baseDelay
  | failureRate
  | seed
  | width
  | height
  | verbose
  | help
  | version
deriving DecidableEq, Repr

namespace Name

def ofLong? : String → Option Name
  | "input" => some input
  | "prompt" => some prompt
  | "output" => some output
  | "outputFormat" => some format
  | "configFile" => some settings
  | "validate" => some validate
  | "simulate" => some simulate
  | "base-delay" => some baseDelay
  | "failure-rate" => some failureRate
  | "seed" => some seed
  | "width" => some width
  | "height" => some height
  | "verbose" => some verbose
  | "help" => some help
  | "version" => some version
  | _ => none

def ofLetter? : Char → Option Name
  | 'i' => some input
  | 'p' => some prompt
  | 'o' => some output
  | 'e' => some format
  | 'c' => some settings
  | 'w' => some width
  | 'H' => some height
  | 'v' => some verbose
  | 'h' => some help
  | 'V' => some version
  | _ => none

def takesValue : Name → Bool
  | validate => false
  | simulate => false
  | verbose => false
  | help => false
  | version => false
  | _ => true

end Name

/-- Why the command line asks for no work. -/
inductive Refusal where
  | help
  | version
  | usage
deriving DecidableEq, Repr

/-- A whole number without sign or with a plus sign, of at most 64 bits. -/
def wholeNumber? (text : String) : Option Nat :=
  let digits :=
    match text.toList with
    | '+' :: rest => rest
    | cs => cs
  if digits.isEmpty || !digits.all Decimal.isDigit then none
  else if Decimal.value digits ≤ 0xFFFFFFFFFFFFFFFF then some (Decimal.value digits) else none

def path? (text : String) : Option String := if text = "" then none else some text

/-- Stores the value of an option, if it is one. -/
def Options.store? (o : Options) (name : Name) (value : String) : Option Options :=
  match name with
  | .input => (path? value).map fun v => { o with input := some v }
  | .prompt => some { o with prompt := some value }
  | .output => (path? value).map fun v => { o with output := some v }
  | .format => (Format.ofName? value).map fun v => { o with format := v }
  | .settings => (path? value).map fun v => { o with settings := some v }
  | .baseDelay => (wholeNumber? value).map fun v => { o with baseDelay := some v }
  | .failureRate =>
    (Decimal.numeral? value.toList).map fun v => { o with failureRate := some v.toFloat }
  | .seed => (wholeNumber? value).map fun v => { o with seed := some v }
  | .width => (Decimal.numeral? value.toList).map fun v => { o with width := some v.toFloat32 }
  | .height => (Decimal.numeral? value.toList).map fun v => { o with height := some v.toFloat32 }
  | _ => none

/-- What has been read of the command line: the options, and the names given so far. -/
structure Reading where
  options : Options
  given : List Name

namespace Reading

def give (r : Reading) (name : Name) : Except Refusal Reading :=
  if r.given.contains name then throw .usage else return { r with given := name :: r.given }

/-- An option without value. -/
def flag (r : Reading) (name : Name) : Except Refusal Reading := do
  match name with
  | .help => throw .help
  | .version => throw .version
  | .validate => return { (← r.give name) with options := { r.options with validate := true } }
  | .simulate => return { (← r.give name) with options := { r.options with simulate := true } }
  | .verbose => return { (← r.give name) with options := { r.options with verbose := true } }
  | _ => throw .usage

def value (r : Reading) (name : Name) (value : String) : Except Refusal Reading := do
  let given ← r.give name
  match r.options.store? name value with
  | some options => return { given with options := options }
  | none => throw .usage

end Reading

/-- A value cannot begin like an option; a single hyphen is a value. -/
def isValue (argument : String) : Bool :=
  match argument.toList with
  | ['-'] => true
  | '-' :: _ => false
  | _ => true

/-- Reads letters that are run together; an option left without value is given back. -/
def readLetters (r : Reading) : List Char → Except Refusal (Reading × Option Name)
  | [] => return (r, none)
  | letter :: rest =>
    match Name.ofLetter? letter with
    | none => throw .usage
    | some name =>
      if name.takesValue then
        match rest with
        | [] => return (r, some name)
        | '=' :: attached => do return (← r.value name (String.ofList attached), none)
        | attached => do return (← r.value name (String.ofList attached), none)
      else do readLetters (← r.flag name) rest

/-- Reads what follows two hyphens. -/
def readLong (r : Reading) (text : List Char) : Except Refusal (Reading × Option Name) := do
  let long := text.takeWhile (· ≠ '=')
  match Name.ofLong? (String.ofList long), text.drop long.length with
  | none, _ => throw .usage
  | some name, [] =>
    if name.takesValue then return (r, some name) else return (← r.flag name, none)
  | some name, _ :: attached =>
    if name.takesValue then return (← r.value name (String.ofList attached), none)
    else throw .usage

/-- Reads one argument that is no value of the option before it. -/
def readArgument (r : Reading) (argument : String) : Except Refusal (Reading × Option Name) :=
  match argument.toList with
  | '-' :: '-' :: rest => readLong r rest
  | '-' :: c :: rest => readLetters r (c :: rest)
  | _ => throw .usage

/-- Reads all arguments; `waiting` is an option whose value must come next. Behind two
hyphens alone nothing may follow, because there are no arguments but options. -/
def readArguments (r : Reading) (waiting : Option Name) : List String → Except Refusal Reading
  | [] => if waiting.isSome then throw .usage else return r
  | argument :: rest =>
    match waiting with
    | some name =>
      if isValue argument then do readArguments (← r.value name argument) none rest
      else throw .usage
    | none =>
      if argument = "--" then if rest.isEmpty then return r else throw .usage
      else do
        let (r, waiting) ← readArgument r argument
        readArguments r waiting rest

/-- There is one source of the process, and it is either checked or run. -/
def Options.isConsistent (o : Options) : Bool :=
  !(o.input.isSome && o.prompt.isSome) && !(o.validate && o.simulate)

def Options.ofArguments (arguments : List String) : Except Refusal Options := do
  let r ← readArguments ⟨.standard, []⟩ none arguments
  if r.options.isConsistent then return r.options else throw .usage

/-- Options of the command line replace what the settings file says. -/
def Options.applyTo (o : Options) (s : Settings) : Settings :=
  { s with
    canvas :=
      { s.canvas with
        width := o.width.getD s.canvas.width
        height := o.height.getD s.canvas.height }
    run :=
      { baseDelay := o.baseDelay.getD s.run.baseDelay
        failureRate := o.failureRate.getD s.run.failureRate
        seed := o.seed.or s.run.seed } }

end ProcessChart.Command
