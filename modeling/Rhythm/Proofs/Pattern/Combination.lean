import Rhythm.Proofs.Pattern.Cyclic

/-! Two patterns merged, position by position, in endless repetition. The least common multiple of
their lengths is a period of the merge, and a merge of merges has the least common multiple of all
the lengths, whichever two come first. -/
namespace Rhythm.Pattern

variable {p q r s p' q' : Pattern} {how how' : Merge} {n : Nat}

theorem cyclic_emod (h : p.length ∣ n) (hn : 0 < n) (z : Int) :
    p.cyclic (z % n).toNat = p.cyclic (z % p.length).toNat := by
  have hpos := p.length_pos'
  have hstep : ((z % n).toNat % p.length : Nat) = (z % p.length).toNat := by
    apply Int.ofNat.inj
    change (((z % n).toNat % p.length : Nat) : Int) = ((z % p.length).toNat : Int)
    rw [Int.natCast_emod, Int.toNat_of_nonneg (Int.emod_nonneg z (by omega)),
      Int.toNat_of_nonneg (Int.emod_nonneg z (by omega)),
      Int.emod_emod_of_dvd z (Int.natCast_dvd_natCast.2 h)]
  rw [← cyclic_mod (Nat.dvd_refl p.length), hstep]

/-- What has a period is the repetition of its table over that period. -/
theorem cyclic_tabulate {f : Nat → Bool} (hn : clampSteps n = n) (hf : ∀ i, f (i % n) = f i)
    (i : Nat) : (tabulate n f).cyclic i = f i := by
  have hpos : 0 < n := hn ▸ clampSteps_pos n
  have hlt : i % n < n := Nat.mod_lt i hpos
  rw [cyclic, length_tabulate, hn, isOnset_tabulate, hn, hf]
  simp [hlt]

theorem lcm_length_pos (p q : Pattern) : 0 < p.length.lcm q.length :=
  Nat.lcm_pos p.length_pos' q.length_pos'

theorem combine_of_le (h : p.length.lcm q.length ≤ maxSteps) : combine how p q =
    .ok (tabulate (p.length.lcm q.length) fun i => how.apply (p.cyclic i) (q.cyclic i)) := if_pos h

theorem combine_of_lt (h : maxSteps < p.length.lcm q.length) :
    combine how p q = .error (.combinedTooLong (p.length.lcm q.length)) :=
  if_neg (Nat.not_le_of_lt h)

/-- The merge is the one pattern of the common period whose repetition is the repetitions merged. -/
theorem combine_eq_ok_iff : combine how p q = .ok r ↔ r.length = p.length.lcm q.length ∧
    ∀ i, r.cyclic i = how.apply (p.cyclic i) (q.cyclic i) := by
  have hmerged : p.length.lcm q.length ≤ maxSteps →
      ∃ t, combine how p q = .ok t ∧ t.length = p.length.lcm q.length ∧
        ∀ i, t.cyclic i = how.apply (p.cyclic i) (q.cyclic i) := by
    intro hle
    have hclamp := clampSteps_of_le (lcm_length_pos p q) hle
    refine ⟨_, combine_of_le hle, ?_, cyclic_tabulate hclamp ?_⟩
    · rw [length_tabulate, hclamp]
    · intro i
      rw [cyclic_mod (Nat.dvd_lcm_left ..), cyclic_mod (Nat.dvd_lcm_right ..)]
  constructor
  · intro h
    by_cases hle : p.length.lcm q.length ≤ maxSteps
    · obtain ⟨t, ht, hlength, hcyclic⟩ := hmerged hle
      cases h.symm.trans ht
      exact ⟨hlength, hcyclic⟩
    · rw [combine_of_lt (Nat.lt_of_not_le hle)] at h
      cases h
  · rintro ⟨hlength, hcyclic⟩
    obtain ⟨t, ht, htlength, htcyclic⟩ := hmerged (hlength ▸ r.length_le')
    have hsame : t = r := by
      apply ext_cyclic (htlength.trans hlength.symm)
      intro i
      rw [htcyclic, hcyclic]
    exact hsame ▸ ht

/-- Two patterns can be merged just when their common period is no longer than a pattern. -/
theorem exists_combine_iff (how : Merge) (p q : Pattern) :
    (∃ r, combine how p q = .ok r) ↔ p.length.lcm q.length ≤ maxSteps := by
  constructor
  · rintro ⟨r, hr⟩
    exact (combine_eq_ok_iff.1 hr).1 ▸ r.length_le'
  · intro h
    exact ⟨_, combine_of_le h⟩

/-- Merges are equal, also in what is wrong with them, if their periods and their steps are. -/
theorem combine_congr (hlength : p.length.lcm q.length = p'.length.lcm q'.length)
    (h : ∀ i, how.apply (p.cyclic i) (q.cyclic i) = how'.apply (p'.cyclic i) (q'.cyclic i)) :
    combine how p q = combine how' p' q' := by
  unfold combine
  simp only [hlength, h]

/-- An operation that keeps the length takes a merge to a merge if it does so step by step. -/
theorem map_combine {g : Pattern → Pattern} (hg : ∀ r, (g r).length = r.length)
    (hlength : p.length.lcm q.length = p'.length.lcm q'.length)
    (h : ∀ r, combine how p q = .ok r →
      ∀ i, (g r).cyclic i = how'.apply (p'.cyclic i) (q'.cyclic i)) :
    (combine how p q).map g = combine how' p' q' := by
  by_cases hle : p.length.lcm q.length ≤ maxSteps
  · obtain ⟨r, hr⟩ := (exists_combine_iff how p q).2 hle
    have hcommon := (combine_eq_ok_iff.1 hr).1
    rw [hr]
    refine (combine_eq_ok_iff.2 ⟨?_, h r hr⟩).symm
    rw [hg, hcommon, hlength]
  · rw [combine_of_lt (Nat.lt_of_not_le hle), combine_of_lt (hlength ▸ Nat.lt_of_not_le hle),
      hlength]
    rfl

section Again

variable {f : Pattern → Except PatternError Pattern}

theorem bind_combine_eq_ok_iff :
    (combine how p q).bind f = .ok s ↔ ∃ r, combine how p q = .ok r ∧ f r = .ok s := by
  cases combine how p q <;> simp [Except.bind]

/-- If a merge is merged again, on whichever side, its own period divides the one of all three. So
it is no longer than a pattern if the whole is not. -/
theorem merge_merged_iff (period : Nat → Nat) (step : Nat → Bool → Bool)
    (hf : ∀ t, f t = .ok s ↔ s.length = period t.length ∧ ∀ i, s.cyclic i = step i (t.cyclic i))
    (hperiod : ∀ n, n ∣ period n) : (combine how p q).bind f = .ok s ↔
      s.length = period (p.length.lcm q.length) ∧
        ∀ i, s.cyclic i = step i (how.apply (p.cyclic i) (q.cyclic i)) := by
  rw [bind_combine_eq_ok_iff]
  constructor
  · rintro ⟨t, ht, hs⟩
    obtain ⟨hinner, hmerged⟩ := combine_eq_ok_iff.1 ht
    obtain ⟨hlength, hcyclic⟩ := (hf t).1 hs
    rw [hinner] at hlength
    simp only [hmerged] at hcyclic
    exact ⟨hlength, hcyclic⟩
  · rintro ⟨hlength, hcyclic⟩
    have hdvd : p.length.lcm q.length ∣ s.length := hlength ▸ hperiod _
    have hle := Nat.le_trans (Nat.le_of_dvd s.length_pos' hdvd) s.length_le'
    obtain ⟨t, ht⟩ := (exists_combine_iff how p q).2 hle
    obtain ⟨hinner, hmerged⟩ := combine_eq_ok_iff.1 ht
    refine ⟨t, ht, (hf t).2 ⟨?_, ?_⟩⟩
    · rw [hlength, hinner]
    · intro i
      rw [hcyclic, hmerged]

end Again

theorem combine_left_eq_ok_iff : (combine how p q).bind (combine how' · r) = .ok s ↔
    s.length = (p.length.lcm q.length).lcm r.length ∧
      ∀ i, s.cyclic i = how'.apply (how.apply (p.cyclic i) (q.cyclic i)) (r.cyclic i) :=
  merge_merged_iff (fun n => n.lcm r.length) (fun i onset => how'.apply onset (r.cyclic i))
    (fun _ => combine_eq_ok_iff) fun n => Nat.dvd_lcm_left n _

theorem combine_right_eq_ok_iff : (combine how q r).bind (combine how' p ·) = .ok s ↔
    s.length = p.length.lcm (q.length.lcm r.length) ∧
      ∀ i, s.cyclic i = how'.apply (p.cyclic i) (how.apply (q.cyclic i) (r.cyclic i)) :=
  merge_merged_iff (fun n => p.length.lcm n) (fun i onset => how'.apply (p.cyclic i) onset)
    (fun _ => combine_eq_ok_iff) fun n => Nat.dvd_lcm_right _ n

theorem toOption_congr {x y : Except PatternError Pattern} (h : ∀ s, x = .ok s ↔ y = .ok s) :
    x.toOption = y.toOption := by
  cases y with
  | ok s => rw [(h s).2 rfl]
  | error _ =>
    cases x with
    | ok s => cases (h s).1 rfl
    | error _ => rfl

/-- Three merges come to the same, on either side, if their steps do. -/
theorem combine_assoc {inner outer inner' outer' : Merge}
    (h : ∀ a b c, outer.apply (inner.apply a b) c = outer'.apply a (inner'.apply b c)) :
    ((combine inner p q).bind (combine outer · r)).toOption =
      ((combine inner' q r).bind (combine outer' p ·)).toOption := by
  apply toOption_congr
  intro s
  rw [combine_left_eq_ok_iff, combine_right_eq_ok_iff, Nat.lcm_assoc]
  simp only [h]

theorem combine_add_comm (p q : Pattern) : combine .add p q = combine .add q p :=
  combine_congr (Nat.lcm_comm _ _) fun _ => Bool.or_comm _ _

/-- Taking away is adding to the rests. -/
theorem combine_subtract_eq (p q : Pattern) :
    combine .subtract p q = (combine .add p.invert q).map invert := by
  refine (map_combine length_invert ?_ ?_).symm
  · rw [length_invert]
  · intro r hr i
    obtain ⟨-, hcyclic⟩ := combine_eq_ok_iff.1 hr
    rw [cyclic_invert, hcyclic, cyclic_invert]
    simp [Merge.apply]

/-- Turning both patterns turns the merge. -/
theorem combine_rotate (how : Merge) (p q : Pattern) (k : Int) :
    combine how (p.rotate k) (q.rotate k) = (combine how p q).map (·.rotate k) := by
  refine (map_combine (fun r => length_rotate r k) ?_ ?_).symm
  · rw [length_rotate, length_rotate]
  · intro r hr i
    obtain ⟨hlength, hcyclic⟩ := combine_eq_ok_iff.1 hr
    have hpos := lcm_length_pos p q
    rw [cyclic_rotate, hlength, hcyclic, cyclic_emod (Nat.dvd_lcm_left ..) hpos,
      cyclic_emod (Nat.dvd_lcm_right ..) hpos, cyclic_rotate, cyclic_rotate]

/-- Merging patterns is merging their endless repetitions step by step: there is a merge just when
the common period is no longer than a pattern, and then it has that length. So the laws of the steps
are laws of patterns, and where one side has no merge the other side has none. -/
theorem combine_positionwise :
    (∀ how p q, (∃ r, combine how p q = .ok r) ↔ p.length.lcm q.length ≤ maxSteps) ∧
    (∀ p q r, combine .add p q = .ok r ↔ r.length = p.length.lcm q.length ∧
      ∀ i, r.cyclic i = (p.cyclic i || q.cyclic i)) ∧
    (∀ p q r, combine .subtract p q = .ok r ↔ r.length = p.length.lcm q.length ∧
      ∀ i, r.cyclic i = (p.cyclic i && !q.cyclic i)) ∧
    (∀ p q, combine .add p q = combine .add q p) ∧
    (∀ p q r, ((combine .add p q).bind (combine .add · r)).toOption =
      ((combine .add q r).bind (combine .add p ·)).toOption) ∧
    (∀ p q r, ((combine .subtract p q).bind (combine .subtract · r)).toOption =
      ((combine .add q r).bind (combine .subtract p ·)).toOption) ∧
    (∀ p q, combine .subtract p q = (combine .add p.invert q).map invert) ∧
    ∀ how p q k, combine how (p.rotate k) (q.rotate k) = (combine how p q).map (·.rotate k) := by
  refine ⟨exists_combine_iff, fun _ _ _ => combine_eq_ok_iff,
    fun _ _ _ => combine_eq_ok_iff, combine_add_comm, ?_, ?_, combine_subtract_eq, combine_rotate⟩
  · intro p q r
    exact combine_assoc Bool.or_assoc
  · intro p q r
    apply combine_assoc
    intro a b c
    cases a <;> cases b <;> rfl

example : (combine .subtract (full 2) (ofOnsets [0] 3)).toOption.map (·.steps) =
    some [false, true, true, false, true, true] := by decide +kernel

end Rhythm.Pattern
