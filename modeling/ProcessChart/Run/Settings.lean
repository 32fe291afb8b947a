import ProcessChart.Record.Schema

/-!
How a demonstration run goes: its pace, how often a node fails, and the seed of
its random draws.
-/
namespace ProcessChart

structure RunSettings where
  /-- The delay, in milliseconds, of which every wait is a multiple. -/
  baseDelay : Nat
  failureRate : Float
  /-- Without a seed the clock decides. -/
  seed : Option Nat

namespace RunSettings

def standard : RunSettings := ⟨600, 0.15, none⟩

variable {σ : Type} [Source σ]

def schema : Schema σ RunSettings where
  name := "SimulationOptions"
  initial := standard
  fields :=
    [⟨"baseDelayMs", .optional,
      fun v s => return { s with baseDelay := ← Source.natural .unsigned64 v }⟩,
     ⟨"failureRate", .optional, fun v s => return { s with failureRate := ← Source.float64 v }⟩,
     ⟨"seed", .optional,
      fun v s => return { s with seed := ← Source.optional (Source.natural .unsigned64) v }⟩]

end RunSettings

end ProcessChart
