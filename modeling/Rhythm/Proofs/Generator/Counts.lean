import Rhythm.Generator.Polygon
import Rhythm.Proofs.Circle
import Rhythm.Proofs.Generator.Evenness
import Rhythm.Proofs.Pattern.Onsets

/-! How many steps and onsets the generators make. -/
namespace Rhythm

theorem length_ofOnsets_clampSteps (positions : List Nat) (n : Nat) :
    (Pattern.ofOnsets positions (clampSteps n)).length = clampSteps n := by
  rw [Pattern.ofOnsets, Pattern.tabulate_clampSteps, Pattern.length_tabulate]

theorem length_euclidean (onsets steps : Nat) :
    (euclidean onsets steps).length = clampSteps steps := by
  rw [euclidean, Pattern.length_alignToDownbeat, Pattern.tabulate_clampSteps,
    Pattern.length_tabulate]

theorem length_dilcue (onsets steps : Nat) : (dilcue onsets steps).length = clampSteps steps := by
  rw [dilcue, Pattern.length_invert, length_euclidean, Pattern.clampSteps_clampSteps]

theorem length_preferred (metric : Metric) (onsets steps : Nat) :
    (preferred metric onsets steps).length = clampSteps steps := Pattern.length_tabulate _ _

theorem length_polygon (sides : Nat) (offset : Int) (steps : Nat) :
    (polygon sides offset steps).length = clampSteps steps := by
  rw [polygon, Pattern.length_rotate, length_ofOnsets_clampSteps]

theorem onsetCount_euclidean (onsets steps : Nat) :
    (euclidean onsets steps).onsetCount = min onsets (clampSteps steps) := by
  have hlength := length_bjorklund (min onsets (clampSteps steps)) (clampSteps steps)
  have hcount := count_bjorklund (min onsets (clampSteps steps)) (clampSteps steps)
  have hclamp := Pattern.clampSteps_clampSteps steps
  rw [euclidean, Pattern.onsetCount_alignToDownbeat, Pattern.onsetCount,
    Pattern.steps_tabulate_getD (hlength.trans hclamp.symm)]
  omega

theorem onsetCount_dilcue (onsets steps : Nat) :
    (dilcue onsets steps).onsetCount = min onsets (clampSteps steps) := by
  have hlength := length_euclidean (clampSteps steps - min onsets (clampSteps steps))
    (clampSteps steps)
  have hcount := onsetCount_euclidean (clampSteps steps - min onsets (clampSteps steps))
    (clampSteps steps)
  have hclamp := Pattern.clampSteps_clampSteps steps
  rw [dilcue, Pattern.onsetCount_invert]
  omega

/-- The corners of a polygon are all on different steps, since it has no more corners than steps. -/
theorem onsetCount_polygon (sides : Nat) (offset : Int) (steps : Nat) :
    (polygon sides offset steps).onsetCount = min sides (clampSteps steps) := by
  have hclamp := Pattern.clampSteps_clampSteps steps
  have hpos := clampSteps_pos steps
  have hle : min sides (clampSteps steps) ≤ clampSteps steps := Nat.min_le_right _ _
  have hdup : ((List.range (min sides (clampSteps steps))).map fun i =>
      nearestStep i (min sides (clampSteps steps)) (clampSteps steps)).Nodup := by
    rw [List.nodup_map_iff_inj_on List.nodup_range]
    intro i hi j hj hsame
    exact nearestStep_inj hle (List.mem_range.1 hi) (List.mem_range.1 hj) hsame
  rw [polygon, Pattern.onsetCount_rotate, Pattern.onsetCount_ofOnsets hdup, List.length_map,
    List.length_range]
  intro q hq
  obtain ⟨i, -, rfl⟩ := List.mem_map.1 hq
  rw [hclamp]
  exact Nat.mod_lt _ hpos

/-- What the first group starts with stays in front through all rounds. -/
theorem prefix_regroup (u : List Bool) {a : Nat} (v : List Bool) (b : Nat) (ha : 0 < a) :
    u <+: regroup u a v b := by
  fun_induction regroup u a v b with
  | case1 u a v b h hlt ih => exact (List.prefix_append u v).trans (ih (by omega))
  | case2 u a v b h hle ih => exact (List.prefix_append u v).trans (ih ha)
  | case3 u a v b h =>
    obtain ⟨k, rfl⟩ := Nat.exists_eq_succ_of_ne_zero (Nat.ne_of_gt ha)
    rw [List.replicate_succ, List.flatten_cons, List.append_assoc]
    exact List.prefix_append u _

/-- The first slot has a pulse if there are pulses and slots at all. -/
theorem head?_bjorklund (pulses steps : Nat) :
    (bjorklund pulses steps).head? = some true ↔ 0 < pulses ∧ 0 < steps := by
  unfold bjorklund
  split
  · next hfull =>
    rw [List.head?_replicate]
    by_cases hzero : steps = 0
    · simp [hzero]
    · simp [hzero]
      omega
  · next hfull =>
    split
    · next hnone => simp [hnone, List.head?_replicate]
    · next hsome =>
      obtain ⟨rest, hword⟩ := prefix_regroup [true] [false] (steps - pulses)
        (Nat.pos_of_ne_zero hsome)
      rw [← hword]
      simp
      omega

end Rhythm
