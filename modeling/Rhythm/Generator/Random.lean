import Rhythm.Pattern
import Rhythm.Random.Sampler

/-! Onsets on random positions. -/
namespace Rhythm

open Rhythm.Random

/-- So many onsets on positions drawn uniformly. -/
def scatter [Sampler] (onsets steps : Nat) : Draw Pattern := do
  let n := clampSteps steps
  let positions ← Sampler.positions n (min onsets n)
  return .ofOnsets positions n

/-- The scatter that a seed determines. -/
def seeded [Sampler] (onsets steps : Nat) (seed : UInt64) : Pattern :=
  (scatter onsets steps (Pcg32.ofSeed seed)).1

/-- A number of onsets for a block, on a bell curve about half its steps. A block is neither empty
nor full, apart from one of a single step, which has its onset. -/
def bellOnsets [Sampler] (steps : Nat) : Draw Nat := do
  let mean := steps.toFloat / 2.0
  let spread := steps.toFloat - 2.0
  let deviation := (if 0.0 < spread then spread else 0.0) / 6.0
  let drawn := (mean + deviation * (← Sampler.normal)).round
  let onsets := (if 0.0 < drawn then drawn else 0.0).toUInt64.toNat
  return max 1 (min onsets (max (steps - 1) 1))

/-- A block of steps with a number of onsets on the bell curve. -/
def bellScatter [Sampler] (steps : Nat) : Draw Pattern := do
  let onsets ← bellOnsets steps
  scatter onsets steps

end Rhythm
