import ProcessChart.Command.Outcome
import Std.Time.DateTime.Timestamp

/-!
The command `bpmnr`. It reads the files that its arguments name, asks the clock,
and does what the outcome says. Pictures of pixels are left to other programs.
-/
namespace ProcessChart.Command

def usage : String :=
  "Usage: bpmnr [OPTIONS]\n\n" ++
  "  -i, --input <FILE>           process file, or - for standard input\n" ++
  "  -p, --prompt <TEXT>          draft the process from a description\n" ++
  "  -o, --output <FILE>          write to a file\n" ++
  "  -e, --outputFormat <FORMAT>  bpmn, svg, png or layout\n" ++
  "  -c, --configFile <FILE>      settings file\n" ++
  "      --validate               only check the process\n" ++
  "      --simulate               run the process and write the run as JSON\n" ++
  "      --base-delay <MS>        base delay of the run\n" ++
  "      --failure-rate <RATE>    how often a node fails, from 0 to 1\n" ++
  "      --seed <SEED>            seed of the run\n" ++
  "  -w, --width <WIDTH>          width of the canvas\n" ++
  "  -H, --height <HEIGHT>        height of the canvas\n" ++
  "  -v, --verbose\n" ++
  "  -h, --help\n" ++
  "  -V, --version\n"

def FileFault.ofError : IO.Error → FileFault
  | .noFileOrDirectory _ _ _ => .notFound
  | .inappropriateType _ _ _ => .isFolder
  | e => ⟨toString e⟩

def attempt {α : Type} (action : IO α) : IO (Except FileFault α) := do
  match ← action.toBaseIO with
  | .ok a => return .ok a
  | .error e => return .error (.ofError e)

def readInput : IO String := do (← IO.getStdin).readToEnd

/-- Reads only what the options need. -/
def surroundingsOf (o : Options) : IO Surroundings := do
  let settings ←
    match o.settings with
    | some path => attempt (IO.FS.readFile path)
    | none => pure (.ok "")
  let process ←
    match o.prompt, o.input with
    | some _, _ => pure (.ok "")
    | none, some path => if path = "-" then attempt readInput else attempt (IO.FS.readFile path)
    | none, none => attempt readInput
  let now := (← Std.Time.Timestamp.now).toNanosecondsSinceUnixEpoch.val.toNat
  return ⟨settings, process, now / 1000000, now⟩

def write (path : String) : Content → IO (Except FileFault Unit)
  | .text text => attempt (IO.FS.writeFile path text)
  | .picture _ _ _ => return .error ⟨"drawing pixels is not supported"⟩

def print (outcome : Outcome) : IO UInt32 := do
  IO.print outcome.out
  IO.eprint outcome.err
  return UInt32.ofNat outcome.exitCode

def deliver (outcome : Outcome) : IO UInt32 := do
  match outcome.file with
  | none => print outcome
  | some (path, content) =>
    match ← write path content with
    | .ok () => print outcome
    | .error fault => print (.withWriteFault fault)

end ProcessChart.Command

open ProcessChart.Command in
def main (arguments : List String) : IO UInt32 := do
  match Options.ofArguments arguments with
  | .error refusal =>
    match refusal with
    | .help => IO.print usage
    | .usage => IO.eprint usage
    | .version => pure ()
    ProcessChart.Command.print (.refused refusal)
  | .ok o => deliver (o.execute (← surroundingsOf o))
