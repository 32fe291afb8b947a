import ProcessChart.Record.Schema

/-!
How often and after which waits a failed attempt at drafting a process is repeated.
-/
namespace ProcessChart

structure DraftSettings where
  /-- Attempts after the first. -/
  retries : Nat
  /-- The wait before the first retry, in milliseconds; it doubles with every retry. -/
  backoff : Nat
deriving DecidableEq, Repr

namespace DraftSettings

def standard : DraftSettings := ⟨2, 500⟩

variable {σ : Type} [Source σ]

def schema : Schema σ DraftSettings where
  name := "GenerationConfig"
  initial := standard
  fields :=
    [⟨"retries", .optional,
      fun v s => return { s with retries := ← Source.natural .unsigned32 v }⟩,
     ⟨"backoffMs", .optional,
      fun v s => return { s with backoff := ← Source.natural .unsigned64 v }⟩]

end DraftSettings

end ProcessChart
