import Mathlib.Data.Bool.Count
import Mathlib.Data.List.Dedup
import Mathlib.Data.List.Nodup
import Rhythm.Generator.Indispensability
import Rhythm.Proofs.Pattern.Checked

/-! How many onsets the operations on patterns leave. -/
namespace Rhythm.Pattern

variable {p : Pattern} {positions : List Nat} {i n : Nat}

theorem onsetCount_le (p : Pattern) : p.onsetCount ≤ p.length := List.count_le_length

theorem onsetCount_invert (p : Pattern) : p.invert.onsetCount = p.length - p.onsetCount := by
  have hmap : ∀ steps : List Bool, (steps.map (!·)).count true = steps.count false := by
    intro steps
    induction steps with
    | nil => rfl
    | cons s steps ih => cases s <;> simp [ih]
  have hsum : p.steps.count false + p.steps.count true = p.length :=
    List.count_not_add_count p.steps true
  have hcount : p.invert.onsetCount = p.steps.count false := hmap p.steps
  have hown : p.onsetCount = p.steps.count true := rfl
  omega

theorem onsetCount_rotate (p : Pattern) (k : Int) : (p.rotate k).onsetCount = p.onsetCount := by
  have hpos := p.length_pos'
  have hlow := Int.emod_nonneg k (b := p.length) (by omega)
  have hhigh := Int.emod_lt_of_pos k (b := p.length) (by omega)
  obtain ⟨shift, hshift⟩ := Int.eq_ofNat_of_zero_le hlow
  have hsteps := steps_rotate hshift (by omega)
  have hown : p.onsetCount = (p.steps.take (p.length - shift)).count true +
      (p.steps.drop (p.length - shift)).count true := by
    rw [← List.count_append, List.take_append_drop]
    rfl
  have hturned : (p.rotate k).onsetCount = (p.steps.drop (p.length - shift)).count true +
      (p.steps.take (p.length - shift)).count true := by
    rw [onsetCount, hsteps, List.count_append]
  omega

theorem onsetCount_alignToDownbeat (p : Pattern) :
    p.alignToDownbeat.onsetCount = p.onsetCount := by
  unfold alignToDownbeat
  split
  · exact onsetCount_rotate p _
  · rfl

theorem onsetCount_tabulate (n : Nat) (f : Nat → Bool) :
    (tabulate n f).onsetCount = (List.range (clampSteps n)).countP f := by
  rw [onsetCount, tabulate, List.count_eq_countP, List.countP_map]
  exact List.countP_congr (by simp)

/-- Different positions within the pattern make as many onsets. -/
theorem onsetCount_ofOnsets (hdup : positions.Nodup) (hlt : ∀ i ∈ positions, i < clampSteps n) :
    (ofOnsets positions n).onsetCount = positions.length := by
  have hperm : ((List.range (clampSteps n)).filter positions.contains).Perm positions := by
    apply (List.perm_ext_iff_of_nodup (List.nodup_range.filter _) hdup).2
    intro i
    rw [List.mem_filter, List.mem_range, List.contains_iff_mem]
    constructor
    · intro h
      exact h.2
    · intro h
      exact ⟨hlt i h, h⟩
  rw [ofOnsets, onsetCount_tabulate, List.countP_eq_length_filter, hperm.length_eq]

/-- Positions that occur again make no further onset. -/
theorem onsetCount_ofOnsets_dedup (hlt : ∀ i ∈ positions, i < clampSteps n) :
    (ofOnsets positions n).onsetCount = positions.dedup.length := by
  have hsame : ofOnsets positions n = ofOnsets positions.dedup n := by
    unfold ofOnsets
    simp only [← List.elem_eq_contains, List.elem_eq_mem, List.mem_dedup]
  rw [hsame]
  apply onsetCount_ofOnsets positions.nodup_dedup
  intro i hi
  exact hlt i (List.mem_dedup.1 hi)

theorem length_setStep (p : Pattern) (i : Nat) (onset : Bool) :
    (p.setStep i onset).length = p.length := List.length_set

theorem isOnset_setStep (hi : i < p.length) (onset : Bool) (j : Nat) :
    (p.setStep i onset).isOnset j = if i = j then onset else p.isOnset j := by
  have hsteps : i < p.steps.length := hi
  unfold isOnset setStep
  by_cases hj : i = j
  · subst hj
    simp [hsteps]
  · simp [List.getElem?_set_ne hj, hj]

theorem onsetCount_setStep (hi : i < p.length) (onset : Bool) :
    (p.setStep i onset).onsetCount =
      p.onsetCount - (if p.isOnset i then 1 else 0) + if onset then 1 else 0 := by
  have hsteps : i < p.steps.length := hi
  have hstep : p.isOnset i = p.steps[i] := by simp [isOnset, hsteps]
  have hcount := List.count_set (a := onset) (b := true) hsteps
  simp only [beq_true] at hcount
  rw [hstep]
  exact hcount

theorem onsetCount_eq_countP (p : Pattern) :
    p.onsetCount = (List.range p.length).countP p.isOnset := by
  have hself : tabulate p.length p.isOnset = p := by
    apply ext_isOnset
    · simp
    · intro i hi
      simp at hi ⊢
      intro _
      exact hi
  conv_lhs => rw [← hself, onsetCount_tabulate, clampSteps_length]

theorem lt_of_isOnset (h : p.isOnset i = true) : i < p.length := by
  by_contra hout
  rw [isOnset_of_length_le (by omega)] at h
  cases h

theorem mem_onsets : i ∈ p.onsets ↔ p.isOnset i = true := by
  unfold onsets
  rw [List.mem_filter, List.mem_range]
  constructor
  · intro h
    exact h.2
  · intro h
    exact ⟨lt_of_isOnset h, h⟩

theorem nodup_onsets (p : Pattern) : p.onsets.Nodup := List.nodup_range.filter _

theorem length_onsets (p : Pattern) : p.onsets.length = p.onsetCount := by
  rw [onsetCount_eq_countP, List.countP_eq_length_filter]
  rfl

/-- A pattern that is not full has a rest. -/
theorem exists_rest (h : p.onsetCount < p.length) : ∃ i < p.length, p.isOnset i = false := by
  by_contra hall
  have hfull : ∀ i ∈ List.range p.length, p.isOnset i = true := by
    intro i hi
    by_contra hrest
    exact hall ⟨i, List.mem_range.1 hi, by simpa using hrest⟩
  have hcount := List.countP_eq_length.2 hfull
  rw [← onsetCount_eq_countP, List.length_range] at hcount
  omega

/-- Of two onsets or more, one is not on the downbeat. -/
theorem exists_onset_off (h : 1 < p.onsetCount) : ∃ i < p.length, p.isOnset i = true ∧ i ≠ 0 := by
  by_contra hall
  have hpos := p.length_pos'
  have hrest : (p.setStep 0 false).onsetCount = 0 := by
    rw [onsetCount_eq_countP, List.countP_eq_zero]
    intro i hi
    rw [List.mem_range, length_setStep] at hi
    rw [isOnset_setStep hpos]
    by_cases hzero : 0 = i
    · simp [hzero]
    · rw [if_neg hzero]
      intro honset
      exact hall ⟨i, hi, honset, Ne.symm hzero⟩
  have hcount := onsetCount_setStep hpos false
  rw [hrest] at hcount
  split at hcount <;> simp at hcount <;> omega

theorem exists_onset (h : 0 < p.onsetCount) : ∃ i < p.length, p.isOnset i = true := by
  rw [onsetCount_eq_countP, List.countP_pos_iff] at h
  obtain ⟨i, hi, honset⟩ := h
  exact ⟨i, List.mem_range.1 hi, honset⟩

theorem onsetCount_pos (h : p.isOnset i = true) : 0 < p.onsetCount := by
  rw [← length_onsets]
  exact List.length_pos_of_mem (mem_onsets.2 h)

/-- Aligned, a pattern that has onsets has one on the downbeat. -/
theorem isOnset_zero_alignToDownbeat :
    p.alignToDownbeat.isOnset 0 = true ↔ 0 < p.onsetCount := by
  constructor
  · intro h
    exact onsetCount_alignToDownbeat p ▸ onsetCount_pos h
  · intro h
    obtain ⟨i, hi, honset⟩ := exists_onset h
    unfold alignToDownbeat
    cases hfirst : p.steps.findIdx? id with
    | none =>
      have hsteps : i < p.steps.length := hi
      have hrest : p.steps[i] = false :=
        List.findIdx?_eq_none_iff.1 hfirst _ (List.getElem_mem hsteps)
      simp [isOnset, hsteps, hrest] at honset
    | some first =>
      obtain ⟨hlt, hstep, -⟩ := List.findIdx?_eq_some_iff_getElem.1 hfirst
      have hturned : p.isOnset first = true := by simpa [isOnset, hlt] using hstep
      have hdown : (((0 : Nat) : Int) - -(first : Int)) % p.length = (first : Int) := by
        rw [Int.sub_neg, Int.natCast_zero, Int.zero_add]
        exact Int.emod_eq_of_lt (Int.natCast_nonneg _) (Int.ofNat_lt.2 hlt)
      have hzero : 0 < (p.rotate (-(first : Int))).length := length_pos' _
      rw [← cyclic_of_lt hzero, cyclic_rotate, hdown, Int.toNat_natCast, cyclic_of_lt hlt, hturned]

end Rhythm.Pattern
