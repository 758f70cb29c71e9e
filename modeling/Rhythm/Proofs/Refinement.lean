import Rhythm.Proofs.Quantization

/-! Projection onto more steps loses nothing. The onsets stay apart, and each of them is the step
that its new place goes to on the way back: the error of the first projection is at most half of a
finer step, which is less than half of a step. -/
namespace Rhythm

variable {p : Pattern} {i n m q : Nat} {clockwise : Bool}

/-- The mirrored angle of a step makes up whole turns with it. -/
theorem angle_div (hi : i < n) : ∃ turns : Int, (angle n false i : ℚ) / n = turns - i / n := by
  have hn : (n : ℚ) ≠ 0 := by
    have hpos : 0 < n := by omega
    positivity
  unfold angle
  simp only [Bool.false_eq_true, ↓reduceIte]
  by_cases hzero : i = 0
  · exact ⟨0, by simp [hzero]⟩
  · refine ⟨1, ?_⟩
    rw [Nat.mod_eq_of_lt (by omega), Nat.cast_sub (Nat.le_of_lt hi), sub_div, div_self hn]
    push_cast
    rfl

/-- The position that a step is near to is near to that step in turn, in either direction. -/
theorem Near.angle_symm (hi : i < n) (hq : q < m) (hlt : n < m)
    (h : Near (angle n clockwise i) n q m) : Near (angle m clockwise q) m i n := by
  have hn : 0 < n := by omega
  cases clockwise with
  | true => exact h.symm hn hlt
  | false =>
    -- Both angles are mirrored, so that the distance is the same one and not its negative.
    obtain ⟨turns, hlow, hhigh⟩ := h
    obtain ⟨back, hback⟩ := angle_div hi
    obtain ⟨forth, hforth⟩ := angle_div hq
    have hhalf := half_step_lt hn hlt
    rw [hback] at hlow hhigh
    refine ⟨turns + back - forth, ?_, ?_⟩ <;> rw [hforth] <;> push_cast <;> linarith

/-- Projected onto more steps and back again, a step is where it was. -/
theorem project_project (hi : i < n) (hlt : n < m) (clockwise : Bool) :
    project (project i n m clockwise) m n clockwise = i := by
  obtain ⟨hq, hnear⟩ := (project_eq_iff hi (by omega)).1 (rfl : project i n m clockwise = _)
  exact (project_eq_iff hq (by omega)).2 ⟨hi, hnear.angle_symm hi hq hlt⟩

/-- The onsets are at the steps that onsets go to. -/
theorem isOnset_projected_iff (hpos : 0 < m) (hle : m ≤ maxSteps) :
    (projected p m clockwise).isOnset q = true ↔
      ∃ i, p.isOnset i = true ∧ project i p.length m clockwise = q := by
  rw [isOnset_projected hpos hle]
  constructor
  · rintro ⟨hq, i, honset, hnear⟩
    exact ⟨i, honset, (project_onset_eq_iff hpos honset).2 ⟨hq, hnear⟩⟩
  · rintro ⟨i, honset, htarget⟩
    obtain ⟨hq, hnear⟩ := (project_onset_eq_iff hpos honset).1 htarget
    exact ⟨hq, i, honset, hnear⟩

section Finer

variable (hlt : p.length < m) (hm : m ≤ maxSteps)

include hlt hm

/-- No two onsets meet on more steps, since each of them is found again. -/
theorem onsetCount_projected_of_lt : (projected p m clockwise).onsetCount = p.onsetCount := by
  have hpos : 0 < m := by omega
  rw [onsetCount_projected_eq hpos hm]
  rintro ⟨i, j, q, hij, hi, hj, hq, hneari, hnearj⟩
  have htargeti := (project_onset_eq_iff hpos hi).2 ⟨hq, hneari⟩
  have htargetj := (project_onset_eq_iff hpos hj).2 ⟨hq, hnearj⟩
  have hbacki := project_project (Pattern.lt_of_isOnset hi) hlt clockwise
  have hbackj := project_project (Pattern.lt_of_isOnset hj) hlt clockwise
  rw [htargeti] at hbacki
  rw [htargetj] at hbackj
  exact hij (hbacki.symm.trans hbackj)

/-- The way back undoes the projection onto more steps. -/
theorem projected_projected :
    projected (projected p m clockwise) p.length clockwise = p := by
  have hpos : 0 < m := by omega
  have hlength : (projected p m clockwise).length = m := length_projected hpos hm
  apply Pattern.ext_isOnset
  · exact length_projected p.length_pos' p.length_le'
  · intro i _
    rw [Bool.eq_iff_iff, isOnset_projected_iff p.length_pos' p.length_le', hlength]
    constructor
    · rintro ⟨q, honset, hback⟩
      obtain ⟨j, hj, rfl⟩ := (isOnset_projected_iff hpos hm).1 honset
      rw [project_project (Pattern.lt_of_isOnset hj) hlt] at hback
      exact hback ▸ hj
    · intro hi
      exact ⟨_, (isOnset_projected_iff hpos hm).2 ⟨i, hi, rfl⟩,
        project_project (Pattern.lt_of_isOnset hi) hlt clockwise⟩

end Finer

/-- Onto a pattern's own number of steps it is not projected at all. -/
theorem quantize_self (p : Pattern) (clockwise : Bool) :
    quantize p p.length clockwise = .ok ⟨p, p, clockwise⟩ := by
  unfold quantize
  rw [if_pos ⟨p.length_pos', p.length_le'⟩, if_pos rfl]

/-- On at least as many steps a pattern keeps all its onsets, none of which meet, and projected back
onto as many steps as it had it is itself again. -/
theorem refining_lossless (p : Pattern) (m : Nat) (clockwise : Bool) (hle : p.length ≤ m)
    (hm : m ≤ maxSteps) : ∃ z w, quantize p m clockwise = .ok z ∧ z.result.length = m ∧
      z.result.onsetCount = p.onsetCount ∧ z.conflicts = 0 ∧
      quantize z.result p.length clockwise = .ok w ∧ w.result = p := by
  rcases Nat.eq_or_lt_of_le hle with rfl | hlt
  · have hsame := quantize_self p clockwise
    exact ⟨_, _, hsame, rfl, rfl, Nat.sub_self _, hsame, rfl⟩
  · have hpos : 0 < m := by omega
    have hlength : (projected p m clockwise).length = m := length_projected hpos hm
    have hcount : (projected p m clockwise).onsetCount = p.onsetCount :=
      onsetCount_projected_of_lt hlt hm
    have hback : p.length ≠ (projected p m clockwise).length := by omega
    refine ⟨_, _, quantize_eq hpos hm (Nat.ne_of_gt hlt) clockwise, hlength, hcount, ?_,
      quantize_eq p.length_pos' p.length_le' hback clockwise, projected_projected hlt hm⟩
    exact Nat.sub_eq_zero_of_le (Nat.le_of_eq hcount.symm)

/-- Counter-clockwise from three steps to five and back, with the last step mirrored both times. -/
theorem refining_lossless_of_five : (Pattern.ofOnsets [0, 2] 3).length ≤ 5 ∧ 5 ≤ maxSteps ∧
    ∃ z w, quantize (.ofOnsets [0, 2] 3) 5 false = .ok z ∧ z.conflicts = 0 ∧
      quantize z.result 3 false = .ok w ∧ w.result = .ofOnsets [0, 2] 3 := by
  obtain ⟨z, w, hz, -, -, hkept, hw, hback⟩ :=
    refining_lossless (.ofOnsets [0, 2] 3) 5 false (by decide) (by decide)
  exact ⟨by decide, by decide, z, w, hz, hkept, hw, hback⟩

end Rhythm
