import ProcessChart.Command.Outcome

/-!
A folder held in memory, in which the command can be carried out. It lies in an
outer folder of which nothing else is known. A path is followed name by name;
a single point stays where it is, and two points lead out of the folder.
-/
namespace ProcessChart.Command

structure Folder where
  files : Table Content

/-- What lies at the end of a path. -/
inductive Place where
  | folder
  | file (content : Content)
  /-- Nothing, but a file of this name can be created; `inside` tells in which folder. -/
  | free (name : String) (inside : Bool)

/-- The parts of a path between its strokes. -/
def pathNames (path : String) : List String := (path.splitOn "/").filter (· ≠ "")

/-- A path that ends with a stroke asks for a folder. -/
def namesFolder (path : String) : Bool := path.endsWith "/"

def longestName : Nat := 255

def longestPath : Nat := 4095

namespace Folder

/-- Follows names from the folder or, when not `inside`, from the one around it. -/
def follow (f : Folder) (inside : Bool) : List String → Except FileFault Place
  | [] => .ok .folder
  | name :: rest =>
    if name = "." then f.follow inside rest
    else if name = ".." then f.follow false rest
    else if longestName < name.utf8ByteSize then .error .nameTooLong
    else
      match if inside then f.files.get? name else none with
      | some content => if rest.isEmpty then .ok (.file content) else .error .notFolder
      | none => if rest.isEmpty then .ok (.free name inside) else .error .notFound

def place (f : Folder) (path : String) : Except FileFault Place :=
  if longestPath < path.utf8ByteSize then .error .nameTooLong
  else f.follow (!path.startsWith "/") (pathNames path)

def read (f : Folder) (path : String) : Except FileFault String := do
  match ← f.place path with
  | .folder => throw .isFolder
  | .file (.text text) => if namesFolder path then throw .notFolder else return text
  | .file (.picture _ _ _) => throw .notText
  | .free _ _ => throw .notFound

/-- Writes a file, over the one that lies there if there is one. -/
def write (f : Folder) (path : String) (content : Content) : Except FileFault Folder := do
  match ← f.place path with
  | .folder => throw .isFolder
  | .file _ =>
    if namesFolder path then throw .isFolder
    else return ⟨f.files.insert ((pathNames path).getLastD "") content⟩
  | .free name inside =>
    if namesFolder path then throw .isFolder
    else if inside then return ⟨f.files.insert name content⟩
    else return f

/-- What the command reads, with `input` as its standard input. -/
def surroundings (f : Folder) (input : String) (o : Options) : Surroundings where
  settings :=
    match o.settings with
    | some path => f.read path
    | none => .ok ""
  process :=
    match o.input with
    | some path => if path = "-" then .ok input else f.read path
    | none => .ok input
  clock := 0
  clockSeed := 0

/-- Carries out the command; gives its outcome and the folder after it. -/
def run (f : Folder) (arguments : List String) (input : String) : Outcome × Folder :=
  match Options.ofArguments arguments with
  | .error refusal => (.refused refusal, f)
  | .ok o =>
    let outcome := o.execute (f.surroundings input o)
    match outcome.file with
    | none => (outcome, f)
    | some (path, content) =>
      match f.write path content with
      | .ok after => (outcome, after)
      | .error fault => (.withWriteFault fault, f)

end Folder

end ProcessChart.Command
