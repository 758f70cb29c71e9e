import Mathlib.Tactic.NormNum
import Rhythm.Proofs.Circle
import Rhythm.Proofs.Pattern.Checked
import Rhythm.Proofs.Pattern.Onsets

/-! Projection onto another number of steps. Every onset goes to the one position that its angle is
near to, and nothing else becomes an onset. -/
namespace Rhythm

variable {p : Pattern} {i j n m q : Nat} {clockwise : Bool}

/-- The angle of a step, counted in steps: as it is clockwise, mirrored counter-clockwise. -/
def angle (n : Nat) (clockwise : Bool) (i : Nat) : Nat := if clockwise then i else (n - i) % n

theorem project_eq (hi : i < n) (m : Nat) (clockwise : Bool) :
    project i n m clockwise = nearestStep (angle n clockwise i) n m := by
  unfold project angle
  cases clockwise with
  | true => rfl
  | false =>
    by_cases hzero : i = 0
    · simp [hzero]
    · have hmod : (n - i) % n = n - i := Nat.mod_eq_of_lt (by omega)
      simp [hzero, hmod]

/-- A step goes to the one position that its angle is near to. -/
theorem project_eq_iff (hi : i < n) (hm : 0 < m) : project i n m clockwise = q ↔
    q < m ∧ Near (angle n clockwise i) n q m := by
  rw [project_eq hi]
  exact nearestStep_eq_iff (by omega) hm

/-- Mirrored twice, a step stays where it is. -/
theorem angle_angle (hi : i < n) : angle n false (angle n false i) = i := by
  unfold angle
  simp only [Bool.false_eq_true, ↓reduceIte]
  by_cases hzero : i = 0
  · subst hzero
    rw [Nat.sub_zero, Nat.mod_self, Nat.sub_zero, Nat.mod_self]
  · rw [Nat.mod_eq_of_lt (by omega : n - i < n), Nat.mod_eq_of_lt (by omega)]
    omega

theorem angle_lt (hi : i < n) (clockwise : Bool) : angle n clockwise i < n := by
  unfold angle
  split
  · exact hi
  · exact Nat.mod_lt _ (by omega)

/-- The mirrored pattern: reversed, with its downbeat kept. -/
theorem isOnset_mirrored (hi : i < p.length) :
    (p.reverse.rotate 1).isOnset i = p.isOnset (angle p.length false i) := by
  have hlength : i < (p.reverse.rotate 1).length := by
    rwa [Pattern.length_rotate, Pattern.length_reverse]
  have hplace : (((i : Int) - 1) % p.length).toNat = if i = 0 then p.length - 1 else i - 1 := by
    split
    · next hzero =>
      rw [hzero, ← Int.add_emod_right, Int.emod_eq_of_lt (by omega) (by omega)]
      omega
    · rw [Int.emod_eq_of_lt (by omega) (by omega)]
      omega
  rw [← Pattern.cyclic_of_lt hlength, Pattern.cyclic_rotate, Pattern.length_reverse, hplace]
  unfold angle
  simp only [Bool.false_eq_true, ↓reduceIte]
  split
  · next hzero =>
    have hlast : p.length - 1 < p.reverse.length := by
      rw [Pattern.length_reverse]
      omega
    rw [Pattern.cyclic_of_lt hlast, Pattern.isOnset_reverse (by omega), Nat.sub_self, hzero,
      Nat.sub_zero, Nat.mod_self]
  · have hbefore : i - 1 < p.reverse.length := by
      rw [Pattern.length_reverse]
      omega
    rw [Pattern.cyclic_of_lt hbefore, Pattern.isOnset_reverse (by omega),
      Nat.mod_eq_of_lt (by omega), Nat.sub_sub, Nat.add_sub_cancel' (by omega)]

/-- The steps that the onsets of a pattern go to. -/
def targets (p : Pattern) (m : Nat) (clockwise : Bool) : List Nat :=
  p.onsets.map fun i => project i p.length m clockwise

theorem length_targets (p : Pattern) (m : Nat) (clockwise : Bool) :
    (targets p m clockwise).length = p.onsetCount := by
  rw [targets, List.length_map, Pattern.length_onsets]

theorem project_onset_eq_iff (hm : 0 < m) (honset : p.isOnset i = true) :
    project i p.length m clockwise = q ↔ q < m ∧ Near (angle p.length clockwise i) p.length q m :=
  project_eq_iff (Pattern.lt_of_isOnset honset) hm

theorem mem_targets (hm : 0 < m) : q ∈ targets p m clockwise ↔
    q < m ∧ ∃ i, p.isOnset i = true ∧ Near (angle p.length clockwise i) p.length q m := by
  rw [targets, List.mem_map]
  constructor
  · rintro ⟨i, hi, htarget⟩
    have honset := Pattern.mem_onsets.1 hi
    obtain ⟨hq, hnear⟩ := (project_onset_eq_iff hm honset).1 htarget
    exact ⟨hq, i, honset, hnear⟩
  · rintro ⟨hq, i, honset, hnear⟩
    exact ⟨i, Pattern.mem_onsets.2 honset, (project_onset_eq_iff hm honset).2 ⟨hq, hnear⟩⟩

/-- The targets differ just when no position is near to two onsets. -/
theorem nodup_targets (hm : 0 < m) : (targets p m clockwise).Nodup ↔
    ¬ ∃ i j q, i ≠ j ∧ p.isOnset i = true ∧ p.isOnset j = true ∧ q < m ∧
      Near (angle p.length clockwise i) p.length q m ∧
      Near (angle p.length clockwise j) p.length q m := by
  rw [targets, List.nodup_map_iff_inj_on p.nodup_onsets]
  constructor
  · rintro hinj ⟨i, j, q, hij, hi, hj, hq, hneari, hnearj⟩
    have htargeti := (project_onset_eq_iff hm hi).2 ⟨hq, hneari⟩
    have htargetj := (project_onset_eq_iff hm hj).2 ⟨hq, hnearj⟩
    exact hij (hinj i (Pattern.mem_onsets.2 hi) j (Pattern.mem_onsets.2 hj)
      (htargeti.trans htargetj.symm))
  · intro hapart i hi j hj htarget
    have honseti := Pattern.mem_onsets.1 hi
    have honsetj := Pattern.mem_onsets.1 hj
    obtain ⟨hq, hneari⟩ := (project_onset_eq_iff hm honseti).1 htarget
    obtain ⟨-, hnearj⟩ := (project_onset_eq_iff hm honsetj).1 rfl
    by_contra hij
    exact hapart ⟨i, j, _, hij, honseti, honsetj, hq, hneari, hnearj⟩

/-- The pattern with the onsets at the steps they go to. -/
def projected (p : Pattern) (m : Nat) (clockwise : Bool) : Pattern :=
  .ofOnsets (targets p m clockwise) m

section Target

variable (hpos : 0 < m) (hle : m ≤ maxSteps)

include hpos hle

theorem length_projected : (projected p m clockwise).length = m := by
  rw [projected, Pattern.ofOnsets, Pattern.length_tabulate, clampSteps_of_le hpos hle]

theorem isOnset_projected : (projected p m clockwise).isOnset q = true ↔
    q < m ∧ ∃ i, p.isOnset i = true ∧ Near (angle p.length clockwise i) p.length q m := by
  unfold projected Pattern.ofOnsets
  rw [Pattern.isOnset_tabulate, clampSteps_of_le hpos hle, Bool.and_eq_true, decide_eq_true_eq,
    List.contains_iff_mem, mem_targets hpos, ← and_assoc, and_self]

/-- Counter-clockwise, the mirrored pattern is projected. -/
theorem projected_mirrored :
    projected p m false = projected (p.reverse.rotate 1) m true := by
  have hlength : (p.reverse.rotate 1).length = p.length := by
    rw [Pattern.length_rotate, Pattern.length_reverse]
  apply Pattern.ext_isOnset
  · rw [length_projected hpos hle, length_projected hpos hle]
  · intro q _
    rw [Bool.eq_iff_iff, isOnset_projected hpos hle, isOnset_projected hpos hle, hlength]
    apply and_congr_right
    intro _
    constructor
    · rintro ⟨i, honset, hnear⟩
      have hi := Pattern.lt_of_isOnset honset
      refine ⟨angle p.length false i, ?_, hnear⟩
      rw [isOnset_mirrored (angle_lt hi false), angle_angle hi]
      exact honset
    · rintro ⟨i, honset, hnear⟩
      have hi : i < p.length := hlength ▸ Pattern.lt_of_isOnset honset
      rw [isOnset_mirrored hi] at honset
      refine ⟨angle p.length false i, honset, ?_⟩
      rw [angle_angle hi]
      exact hnear

/-- As many onsets as different targets. -/
theorem onsetCount_projected :
    (projected p m clockwise).onsetCount = (targets p m clockwise).dedup.length := by
  apply Pattern.onsetCount_ofOnsets_dedup
  intro q hq
  rw [clampSteps_of_le hpos hle]
  exact ((mem_targets hpos).1 hq).1

theorem onsetCount_projected_le : (projected p m clockwise).onsetCount ≤ p.onsetCount := by
  rw [onsetCount_projected hpos hle, ← length_targets p m clockwise]
  exact (List.dedup_sublist (targets p m clockwise)).length_le

theorem onsetCount_projected_eq_zero :
    (projected p m clockwise).onsetCount = 0 ↔ p.onsetCount = 0 := by
  rw [onsetCount_projected hpos hle, ← length_targets p m clockwise, List.length_eq_zero_iff,
    List.length_eq_zero_iff, List.dedup_eq_nil]

/-- No onset is lost just when no two of them meet. -/
theorem onsetCount_projected_eq : (projected p m clockwise).onsetCount = p.onsetCount ↔
    ¬ ∃ i j q, i ≠ j ∧ p.isOnset i = true ∧ p.isOnset j = true ∧ q < m ∧
      Near (angle p.length clockwise i) p.length q m ∧
      Near (angle p.length clockwise j) p.length q m := by
  rw [← nodup_targets hpos, onsetCount_projected hpos hle, ← length_targets p m clockwise,
    ← List.dedup_eq_self]
  constructor
  · exact (List.dedup_sublist (targets p m clockwise)).eq_of_length
  · exact congrArg List.length

end Target

theorem quantize_eq (hpos : 0 < m) (hle : m ≤ maxSteps) (hne : m ≠ p.length) (clockwise : Bool) :
    quantize p m clockwise = .ok ⟨p, projected p m clockwise, clockwise⟩ := by
  unfold quantize
  rw [if_pos ⟨hpos, hle⟩, if_neg hne]
  rfl

/-- On another number of steps there is an onset at just those positions that the angle of an onset
is near to. So no onset comes from nowhere, and none is lost that does not meet another one; the
number of those that are lost is never below nought. Counter-clockwise projection is clockwise
projection of the mirrored pattern. -/
theorem quantize_nearest (p : Pattern) (m : Nat) (clockwise : Bool) (hpos : 0 < m)
    (hle : m ≤ maxSteps) (hne : m ≠ p.length) : ∃ z, quantize p m clockwise = .ok z ∧
      (∀ q, z.result.isOnset q = true ↔ q < m ∧ ∃ i, p.isOnset i = true ∧
        Near (angle p.length clockwise i) p.length q m) ∧
      z.result.length = m ∧
      (z.result.onsetCount = 0 ↔ p.onsetCount = 0) ∧
      z.result.onsetCount ≤ min p.onsetCount m ∧
      (quantize p m false).map (·.result) =
        (quantize (p.reverse.rotate 1) m true).map (·.result) ∧
      Checked.sub p.onsetCount z.result.onsetCount = some z.conflicts ∧
      (z.conflicts = 0 ↔ ¬ ∃ i j q, i ≠ j ∧ p.isOnset i = true ∧ p.isOnset j = true ∧ q < m ∧
        Near (angle p.length clockwise i) p.length q m ∧
        Near (angle p.length clockwise j) p.length q m) := by
  have hlength : (projected p m clockwise).length = m := length_projected hpos hle
  have hcount : (projected p m clockwise).onsetCount ≤ p.onsetCount :=
    onsetCount_projected_le hpos hle
  have hsteps := (projected p m clockwise).onsetCount_le
  have hmirrored : m ≠ (p.reverse.rotate 1).length := by
    rwa [Pattern.length_rotate, Pattern.length_reverse]
  refine ⟨_, quantize_eq hpos hle hne clockwise, fun q => isOnset_projected hpos hle, hlength,
    onsetCount_projected_eq_zero hpos hle, ?_, ?_, Checked.sub_eq hcount, ?_⟩
  · change (projected p m clockwise).onsetCount ≤ _
    omega
  · rw [quantize_eq hpos hle hne, quantize_eq hpos hle hmirrored]
    exact congrArg Except.ok (projected_mirrored hpos hle)
  · rw [← onsetCount_projected_eq hpos hle]
    change p.onsetCount - (projected p m clockwise).onsetCount = 0 ↔ _
    omega

/-- Two onsets of four lie midway between two steps: each goes to the later one, the second onset
around the end. -/
theorem quantize_nearest_of_two : 0 < 2 ∧ 2 ≤ maxSteps ∧
    2 ≠ (Pattern.ofOnsets [1, 3] 4).length ∧ ∃ z,
      quantize (.ofOnsets [1, 3] 4) 2 true = .ok z ∧ z.result.isOnset 0 = true ∧
      z.result.isOnset 1 = true ∧ z.result.isOnset 2 = false := by
  obtain ⟨z, hz, honsets, -⟩ :=
    quantize_nearest (.ofOnsets [1, 3] 4) 2 true (by decide) (by decide) (by decide)
  have hfirst : Near 1 4 1 2 := ⟨0, by norm_num, by norm_num⟩
  have hsecond : Near 3 4 0 2 := ⟨-1, by norm_num, by norm_num⟩
  refine ⟨by decide, by decide, by decide, z, hz, ?_, ?_, ?_⟩
  · exact (honsets 0).2 ⟨by decide, 3, by decide, hsecond⟩
  · exact (honsets 1).2 ⟨by decide, 1, by decide, hfirst⟩
  · rw [Bool.eq_false_iff]
    intro honset
    exact absurd ((honsets 2).1 honset).1 (by decide)

end Rhythm
