import ProcessChart.Json.Decode

/-!
What is told about an attempt to draft a process.
-/
namespace ProcessChart

structure DraftReport where
  provider : String
  ok : Bool
  attempts : Nat
  /-- In milliseconds. -/
  duration : Nat
  error : Option String
deriving DecidableEq, Repr

namespace DraftReport

def schema : Schema Json DraftReport where
  name := "GenerationDiagnostics"
  initial := ⟨"", false, 0, 0, none⟩
  fields :=
    [⟨"provider", .required, fun v r => return { r with provider := ← Source.string v }⟩,
     ⟨"ok", .required, fun v r => return { r with ok := ← Source.bool v }⟩,
     ⟨"attempts", .required,
      fun v r => return { r with attempts := ← Source.natural .unsigned32 v }⟩,
     ⟨"durationMs", .required,
      fun v r => return { r with duration := ← Source.natural .unsigned64 v }⟩,
     ⟨"error", .optional,
      fun v r => return { r with error := ← Source.optional Source.string v }⟩]

/-- An absent error is left out. -/
def toJson (r : DraftReport) : Json :=
  .object <|
    [("provider", .string r.provider), ("ok", .bool r.ok), ("attempts", .nat r.attempts),
     ("durationMs", .nat r.duration)] ++
    r.error.toList.map fun e => ("error", .string e)

end DraftReport

end ProcessChart
