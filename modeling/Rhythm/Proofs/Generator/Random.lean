import Rhythm.Generator.Random
import Rhythm.Proofs.Pattern.Onsets
import Rhythm.Proofs.Random.Sample

/-! Random patterns: how long they are and how many onsets they have, whatever is drawn for them. -/
namespace Rhythm

open Rhythm.Random

variable {size : Nat} {run : List Bool}

/-- A run of steps that has an onset unless it is empty, and a rest unless it is a single step. -/
structure Mixed (run : List Bool) : Prop where
  onset : true ∈ run ↔ 0 < run.length
  rest : false ∈ run ↔ 1 < run.length

theorem mixed_nil : Mixed [] := ⟨by simp, by simp⟩

theorem mixed_of_count (hpos : 0 < run.length) (hlow : 1 ≤ run.count true)
    (hhigh : run.count true ≤ max (run.length - 1) 1) : Mixed run := by
  have hsum := List.count_not_add_count run true
  have honsets := List.count_pos_iff (a := true) (l := run)
  have hrests := List.count_pos_iff (a := false) (l := run)
  simp only [Bool.not_true] at hsum
  constructor
  · rw [← honsets]
    omega
  · rw [← hrests]
    omega

/-- The positions that are drawn are distinct. Of the bell curve nothing is asked. -/
class Sampler.Lawful [Sampler] : Prop where
  distinct (length amount : Nat) (h : amount ≤ length) :
    Yields (Sampler.positions length amount) (Distinct length amount)

instance Sampler.lawful_standard : Sampler.Lawful where
  distinct _ _ := yields_sample

variable [Sampler]

theorem length_scatter (onsets steps : Nat) (rng : Pcg32) :
    (scatter onsets steps rng).1.length = clampSteps steps := by
  change (Pattern.ofOnsets _ (clampSteps steps)).length = _
  rw [Pattern.ofOnsets, Pattern.length_tabulate]
  exact clampSteps_of_le (clampSteps_pos _) (clampSteps_le _)

/-- However the number of onsets is drawn. -/
theorem length_drawn (onsets : Draw Nat) (steps : Nat) (rng : Pcg32) :
    ((onsets >>= fun k => scatter k steps) rng).1.length = clampSteps steps :=
  length_scatter (onsets rng).1 steps (onsets rng).2

/-- No onset is lost: the positions differ and are all within the pattern. -/
theorem onsetCount_scatter [Sampler.Lawful] (onsets steps : Nat) (rng : Pcg32) :
    (scatter onsets steps rng).1.onsetCount = min onsets (clampSteps steps) := by
  have hclamp := Pattern.clampSteps_clampSteps steps
  have hall : Yields (scatter onsets steps)
      fun p => p.onsetCount = min onsets (clampSteps steps) := by
    refine (Sampler.Lawful.distinct _ _ (Nat.min_le_right onsets (clampSteps steps))).bind ?_
    intro positions h
    refine yields_pure ?_
    rw [Pattern.onsetCount_ofOnsets h.nodup]
    · exact h.size_eq
    · intro i hi
      rw [hclamp]
      exact h.lt i hi
  exact hall rng

/-- Whatever comes from the bell curve, a block gets an onset and, if it has two steps, a rest. -/
theorem yields_bellOnsets (steps : Nat) :
    Yields (bellOnsets steps) fun k => 1 ≤ k ∧ k ≤ max (steps - 1) 1 := by
  unfold bellOnsets
  refine (yields_any Sampler.normal).bind ?_
  intro z _
  refine yields_pure ?_
  omega

theorem yields_bellScatter [Sampler.Lawful] (hpos : 0 < size) (hsize : size ≤ maxSteps) :
    Yields (bellScatter size) fun p => p.length = size ∧ Mixed p.steps := by
  have hclamp := clampSteps_of_le hpos hsize
  unfold bellScatter
  refine (yields_bellOnsets size).bind ?_
  intro k hk rng
  have hlength := length_scatter k size rng
  have hcount := onsetCount_scatter k size rng
  rw [hclamp] at hlength hcount
  have hsteps : (scatter k size rng).1.steps.length = size := hlength
  refine ⟨hlength, mixed_of_count ?_ ?_ ?_⟩
  · omega
  · change 1 ≤ (scatter k size rng).1.onsetCount
    omega
  · change (scatter k size rng).1.onsetCount ≤ _
    omega

end Rhythm
