import Rhythm.Proofs.Generator.Checked
import Rhythm.Proofs.Generator.Random
import Rhythm.Proofs.Generator.Ranking

/-! What all generators have in common: none of them loses an onset. Groups of pulses are regrouped
and never dropped, the rests of a complement are counted, rankings and samples name no position
twice, and the corners of a polygon stay apart. -/
namespace Rhythm

/-- A pattern of the number of steps asked for, clamped, and of as many onsets as these have room
for. -/
structure Delivers (onsets steps : Nat) (p : Pattern) : Prop where
  length_eq : p.length = clampSteps steps
  onsetCount_eq : p.onsetCount = min onsets (clampSteps steps)

theorem delivers_euclidean (onsets steps : Nat) :
    Delivers onsets steps (euclidean onsets steps) :=
  ⟨length_euclidean onsets steps, onsetCount_euclidean onsets steps⟩

theorem delivers_dilcue (onsets steps : Nat) : Delivers onsets steps (dilcue onsets steps) :=
  ⟨length_dilcue onsets steps, onsetCount_dilcue onsets steps⟩

theorem delivers_preferred (m : Metric) (onsets steps : Nat) :
    Delivers onsets steps (preferred m onsets steps) :=
  ⟨length_preferred m onsets steps, onsetCount_preferred m onsets steps⟩

theorem delivers_seeded [Sampler] [Sampler.Lawful] (onsets steps : Nat) (seed : UInt64) :
    Delivers onsets steps (seeded onsets steps seed) :=
  ⟨length_scatter onsets steps _, onsetCount_scatter onsets steps _⟩

theorem delivers_polygon (sides : Nat) (offset : Int) (steps : Nat) :
    Delivers sides steps (polygon sides offset steps) :=
  ⟨length_polygon sides offset steps, onsetCount_polygon sides offset steps⟩

/-- The even spread begins with an onset if it has any. -/
theorem isOnset_zero_euclidean (onsets steps : Nat) :
    (euclidean onsets steps).isOnset 0 = true ↔ 0 < (euclidean onsets steps).onsetCount := by
  unfold euclidean
  rw [Pattern.isOnset_zero_alignToDownbeat, Pattern.onsetCount_alignToDownbeat]

/-- Whatever a generator is asked for, and whatever draws the positions of a random pattern as long
as they are distinct, the pattern has the steps and the onsets that there is room for, and the even
spread starts with an onset. The spread itself knows no bounds: its rounds come to an end, with as
many slots as were asked for and the pulses among them, a pulse in front. -/
theorem onsets_delivered [Sampler] [Sampler.Lawful] :
    (∀ onsets steps, Delivers onsets steps (euclidean onsets steps) ∧
      Delivers onsets steps (dilcue onsets steps) ∧
      (∀ m, Delivers onsets steps (preferred m onsets steps)) ∧
      (∀ seed, Delivers onsets steps (seeded onsets steps seed)) ∧
      ∀ offset, Delivers onsets steps (polygon onsets offset steps)) ∧
    (∀ onsets steps,
      (euclidean onsets steps).isOnset 0 = true ↔ 0 < (euclidean onsets steps).onsetCount) ∧
    ∀ pulses steps, bjorklund? pulses steps = some (bjorklund pulses steps) ∧
      (bjorklund pulses steps).length = steps ∧
      (bjorklund pulses steps).count true = min pulses steps ∧
      ((bjorklund pulses steps).head? = some true ↔ 0 < pulses ∧ 0 < steps) := by
  refine ⟨?_, isOnset_zero_euclidean, ?_⟩
  · intro onsets steps
    exact ⟨delivers_euclidean onsets steps, delivers_dilcue onsets steps,
      fun m => delivers_preferred m onsets steps, delivers_seeded onsets steps,
      fun offset => delivers_polygon onsets offset steps⟩
  · intro pulses steps
    exact ⟨bjorklund?_eq pulses steps, length_bjorklund pulses steps,
      count_bjorklund pulses steps, head?_bjorklund pulses steps⟩

/-- Three onsets on the positions that a seed draws in eight steps. -/
theorem onsets_delivered_of_tresillo :
    Sampler.Lawful ∧ (seeded 3 8 7).onsetCount = 3 := by
  refine ⟨inferInstance, ?_⟩
  exact ((onsets_delivered.1 3 8).2.2.2.1 7).onsetCount_eq

example : (polygon 5 (-1) 8).steps = [false, true, true, false, true, true, false, true] := by
  decide +kernel

end Rhythm
