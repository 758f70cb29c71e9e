import Rhythm.Proofs.Generator.Ranking
import Rhythm.Proofs.Performance.Turn

/-! Transformations: each trigger brings the number of onsets one nearer to a goal, until it is
there. -/
namespace Rhythm

variable {base p : Pattern} {target goal k n : Nat} {strategy : Strategy} {seed : UInt64}
  {e : Evolution}

/-- A number that goes so many steps toward a goal, but not past it. -/
def approached (goal n count : Nat) : Nat :=
  if count ≤ goal then count + min n (goal - count) else count - min n (count - goal)

theorem approached_zero (goal k : Nat) : approached goal 0 k = k := by
  unfold approached
  split <;> omega

theorem approached_succ (goal n k : Nat) :
    approached goal (n + 1) k =
      if approached goal n k = goal then goal else toward goal (approached goal n k) := by
  unfold approached toward
  split_ifs <;> omega

theorem approached_of_le (h : k ≤ goal) (n : Nat) : approached goal n k = min (k + n) goal := by
  unfold approached
  split <;> omega

theorem approached_eq_self (hn : 0 < n) : approached goal n k = k ↔ k = goal := by
  unfold approached
  split <;> omega

theorem toward_le (h : k ≤ n) (hgoal : goal ≤ n) : toward goal k ≤ n := by
  unfold toward
  split <;> omega

/-- The metric changes one step, an onset more or less as is asked for, and Barlow's takes the
downbeat away only when it is the last onset. -/
theorem exists_flip (m : Metric) (hgoal : goal ≤ p.length) (hne : p.onsetCount ≠ goal) :
    ∃ i < p.length, p.isOnset i = !decide (p.onsetCount < goal) ∧
      (Strategy.flip m).next? (p.onsetCount < goal) (toward goal p.onsetCount) p =
        some (p.setStep i (p.onsetCount < goal)) ∧
      (m = .barlow → 1 < p.onsetCount → p.isOnset 0 = true → i ≠ 0) := by
  by_cases hlt : p.onsetCount < goal
  · obtain ⟨i, hi, hrest, hfill⟩ := Pattern.fill_eq_some (ranking_perm p.length m)
      (Nat.lt_of_lt_of_le hlt hgoal)
    have hnext : (Strategy.flip m).next? (p.onsetCount < goal) (toward goal p.onsetCount) p =
        some (p.setStep i (p.onsetCount < goal)) := by
      simpa [Strategy.next?, Pattern.concentrate, hlt] using hfill
    refine ⟨i, hi, by simp [hlt, hrest], hnext, ?_⟩
    rintro - - honset rfl
    rw [hrest] at honset
    cases honset
  · obtain ⟨i, hi, honset, hthin, hkeep⟩ := Pattern.thin_eq_some
      (ranking_perm p.length m.opposite) (m == .barlow) (by omega)
    have hnext : (Strategy.flip m).next? (p.onsetCount < goal) (toward goal p.onsetCount) p =
        some (p.setStep i (p.onsetCount < goal)) := by
      simpa [Strategy.next?, Pattern.dilute, hlt] using hthin
    refine ⟨i, hi, by simp [hlt, honset], hnext, ?_⟩
    intro hm hmany _
    exact hkeep (by simp [hm]) hmany

/-- Every strategy comes to a pattern of as many steps with one onset more or less. -/
theorem exists_next (strategy : Strategy) (hgoal : goal ≤ p.length) (hne : p.onsetCount ≠ goal) :
    ∃ q, strategy.next? (p.onsetCount < goal) (toward goal p.onsetCount) p = some q ∧
      q.length = p.length ∧ q.onsetCount = toward goal p.onsetCount := by
  have hclamp := Pattern.clampSteps_length p
  have hcount : min (toward goal p.onsetCount) (clampSteps p.length) =
      toward goal p.onsetCount := by
    rw [hclamp]
    exact Nat.min_eq_left (toward_le p.onsetCount_le hgoal)
  cases strategy with
  | euclidean =>
    exact ⟨_, rfl, (length_euclidean _ _).trans hclamp, (onsetCount_euclidean _ _).trans hcount⟩
  | dilcue =>
    exact ⟨_, rfl, (length_dilcue _ _).trans hclamp, (onsetCount_dilcue _ _).trans hcount⟩
  | flip m =>
    obtain ⟨i, hi, hstep, hnext, -⟩ := exists_flip m hgoal hne
    refine ⟨_, hnext, p.length_setStep i _, ?_⟩
    rw [Pattern.onsetCount_setStep hi, hstep, toward]
    by_cases hlt : p.onsetCount < goal
    · simp [hlt]
    · simp [hlt]

namespace Evolution

theorem advance_transform (h : e.progression = .transform target strategy) :
    e.advance = { e.approach target strategy with triggers := e.triggers + 1 } := by
  unfold advance approach
  dsimp only
  rw [h]
  dsimp only
  rw [← h]
  split <;> rfl

/-- A transformation that has come to so many onsets. -/
structure Holds (base : Pattern) (target : Nat) (strategy : Strategy) (count : Nat)
    (e : Evolution) : Prop where
  base_eq : e.base = base
  progression_eq : e.progression = .transform target strategy
  length_eq : e.current.length = base.length
  onsets_eq : e.onsets = count
  count_eq : e.current.onsetCount = count

theorem holds_start : Holds base target strategy base.onsetCount
    (start base (.transform target strategy) seed) := ⟨rfl, rfl, rfl, rfl, rfl⟩

/-- A trigger at the goal changes nothing. -/
theorem holds_advance_eq (h : Holds base target strategy (min target base.length) e) :
    e.advance.current = e.current ∧
      Holds base target strategy (min target base.length) e.advance := by
  have hsame : e.approach target strategy = e := by
    rw [approach, h.length_eq, h.onsets_eq, if_pos rfl]
  have hadvance := advance_transform h.progression_eq
  rw [hsame] at hadvance
  rw [hadvance]
  exact ⟨rfl, h.base_eq, h.progression_eq, h.length_eq, h.onsets_eq, h.count_eq⟩

/-- A trigger before the goal shows the next pattern of the strategy. -/
theorem holds_advance_ne (h : Holds base target strategy k e) (hne : k ≠ min target base.length) :
    strategy.next? (k < min target base.length) (toward (min target base.length) k) e.current =
        some e.advance.current ∧
      Holds base target strategy (toward (min target base.length) k) e.advance := by
  have hcount := h.count_eq
  subst hcount
  obtain ⟨q, hq, hlength, hcount⟩ := exists_next strategy
    (by rw [h.length_eq]; exact Nat.min_le_right ..) hne
  have hgo : e.approach target strategy =
      { e with onsets := toward (min target base.length) e.current.onsetCount, current := q } := by
    rw [approach, h.length_eq, h.onsets_eq, if_neg hne]
    dsimp only
    rw [hq, Option.getD_some]
  have hadvance := advance_transform h.progression_eq
  rw [hgo] at hadvance
  rw [hadvance]
  exact ⟨hq, h.base_eq, h.progression_eq, hlength.trans h.length_eq, rfl, hcount⟩

theorem holds_after (base : Pattern) (target : Nat) (strategy : Strategy) (seed : UInt64)
    (n : Nat) :
    Holds base target strategy (approached (min target base.length) n base.onsetCount)
      (after n base (.transform target strategy) seed) := by
  induction n with
  | zero =>
    rw [approached_zero]
    exact holds_start
  | succ n ih =>
    rw [after_succ, approached_succ]
    split
    · next heq =>
      rw [heq] at ih
      exact (holds_advance_eq ih).2
    · next hne => exact (holds_advance_ne ih hne).2

theorem frozen (h : Holds base target strategy (min target base.length) e) (n : Nat) :
    (advance^[n] e).current = e.current ∧
      Holds base target strategy (min target base.length) (advance^[n] e) := by
  induction n with
  | zero => exact ⟨rfl, h⟩
  | succ n ih =>
    rw [Function.iterate_succ_apply']
    obtain ⟨hcurrent, hholds⟩ := ih
    obtain ⟨hsame, hnext⟩ := holds_advance_eq hholds
    exact ⟨hsame.trans hcurrent, hnext⟩

/-- A strategy that makes its patterns anew shows the one of as many onsets as it has come to. -/
theorem current_after_of_anew {f : Nat → Nat → Pattern}
    (hanew : ∀ adding onsets p, strategy.next? adding onsets p = some (f onsets p.length))
    (hn : 0 < n) (hne : base.onsetCount ≠ min target base.length) :
    (after n base (.transform target strategy) seed).current =
      f (approached (min target base.length) n base.onsetCount) base.length := by
  obtain ⟨n, rfl⟩ := Nat.exists_eq_add_of_lt hn
  rw [Nat.zero_add]
  induction n with
  | zero =>
    have hstart : Holds base target strategy base.onsetCount
        (start base (.transform target strategy) seed) := holds_start
    obtain ⟨hnext, -⟩ := holds_advance_ne hstart hne
    rw [hanew] at hnext
    rw [approached_succ, approached_zero, if_neg hne]
    exact (Option.some.inj hnext).symm
  | succ n ih =>
    have hholds := holds_after base target strategy seed (n + 1)
    rw [after_succ, approached_succ]
    split
    · next heq =>
      rw [heq] at hholds ih
      rw [(holds_advance_eq hholds).1]
      exact ih (by omega)
    · next hgo =>
      obtain ⟨hnext, -⟩ := holds_advance_ne hholds hgo
      rw [hanew, hholds.length_eq] at hnext
      exact (Option.some.inj hnext).symm

/-- A trigger before the goal changes one step by the metric, and only that one. -/
theorem holds_advance_flip {m : Metric} (h : Holds base target (.flip m) k e)
    (hne : k ≠ min target base.length) :
    ∃ i < base.length, (∀ j, e.advance.current.isOnset j ≠ e.current.isOnset j ↔ j = i) ∧
      (m = .barlow → 1 < k → e.current.isOnset 0 = true → i ≠ 0) := by
  obtain ⟨hnext, -⟩ := holds_advance_ne h hne
  have hcount := h.count_eq
  subst hcount
  obtain ⟨i, hi, hstep, hflip, hkeep⟩ := exists_flip m
    (by rw [h.length_eq]; exact Nat.min_le_right ..) hne
  have hcurrent := Option.some.inj (hnext.symm.trans hflip)
  refine ⟨i, h.length_eq ▸ hi, ?_, hkeep⟩
  intro j
  rw [hcurrent, Pattern.isOnset_setStep hi]
  by_cases hj : i = j
  · subst hj
    rw [if_pos rfl, hstep]
    exact iff_of_true (Bool.self_ne_not _) rfl
  · simp [hj, Ne.symm hj]

/-- A trigger changes the pattern just as long as the goal is not reached. -/
theorem holds_changesNext (h : Holds base target strategy k e) :
    e.changesNext = true ↔ k ≠ min target base.length := by
  rw [changesNext, bne_iff_ne]
  by_cases hgoal : k = min target base.length
  · subst hgoal
    simp [(holds_advance_eq h).1]
  · refine iff_of_true ?_ hgoal
    intro hsame
    have hnext := (holds_advance_ne h hgoal).2.count_eq
    rw [hsame, h.count_eq] at hnext
    unfold toward at hnext
    split at hnext <;> omega

theorem holds_isSettled (h : Holds base target strategy k e) :
    e.isSettled = true ↔ k = min target base.length := by
  have hsettled : e.isSettled = decide (e.onsets = min target e.base.length) := by
    unfold isSettled
    rw [h.progression_eq]
    rfl
  rw [hsettled, h.onsets_eq, h.base_eq, decide_eq_true_iff]

/-- Barlow's metric keeps the downbeat while there is another onset. -/
theorem holds_downbeat (h : Holds base target (.flip .barlow) k e) (hmany : 1 < k)
    (honset : e.current.isOnset 0 = true) : e.advance.current.isOnset 0 = true := by
  by_cases hgoal : k = min target base.length
  · subst hgoal
    rw [(holds_advance_eq h).1]
    exact honset
  · obtain ⟨i, -, honly, hkeep⟩ := holds_advance_flip h hgoal
    have hstays := (honly 0).not.2 (Ne.symm (hkeep rfl hmany honset))
    rw [not_not] at hstays
    rw [hstays, honset]

/-- The base of a Euclidean transformation stays as long as the number of its onsets does. -/
theorem current_after_euclidean (base : Pattern) (target : Nat) (seed : UInt64) (n : Nat) :
    (after n base (.transform target .euclidean) seed).current =
      if approached (min target base.length) n base.onsetCount = base.onsetCount then base
      else euclidean (approached (min target base.length) n base.onsetCount) base.length := by
  by_cases hn : n = 0
  · subst hn
    rw [approached_zero, if_pos rfl]
    rfl
  · by_cases hgoal : base.onsetCount = min target base.length
    · have hholds : Holds base target .euclidean base.onsetCount
          (start base (.transform target .euclidean) seed) := holds_start
      rw [hgoal] at hholds
      rw [if_pos ((approached_eq_self (Nat.pos_of_ne_zero hn)).2 hgoal)]
      exact (frozen hholds n).1
    · rw [if_neg (mt (approached_eq_self (Nat.pos_of_ne_zero hn)).1 hgoal)]
      exact current_after_of_anew (f := euclidean) (fun _ _ _ => rfl) (Nat.pos_of_ne_zero hn) hgoal

/-- What a metric adds to a preferred pattern makes the preferred patterns of more onsets. -/
theorem current_after_preferred (m : Metric) {onsets steps : Nat} (hsteps : 0 < steps)
    (hle : steps ≤ maxSteps) (hfrom : onsets ≤ target) (hto : target ≤ steps) (seed : UInt64)
    (n : Nat) :
    (after n (preferred m onsets steps) (.transform target (.flip m)) seed).current =
      preferred m (min (onsets + n) target) steps := by
  have hclamp := clampSteps_of_le hsteps hle
  have hlength : (preferred m onsets steps).length = steps :=
    (length_preferred m onsets steps).trans hclamp
  have hcount : (preferred m onsets steps).onsetCount = onsets := by
    rw [onsetCount_preferred, hclamp]
    omega
  induction n with
  | zero =>
    rw [Nat.add_zero, Nat.min_eq_left hfrom]
    rfl
  | succ n ih =>
    have hholds := holds_after (preferred m onsets steps) target (.flip m) seed n
    rw [hlength, hcount, Nat.min_eq_left hto, approached_of_le hfrom] at hholds
    rw [after_succ]
    by_cases hgo : onsets + n < target
    · obtain ⟨hnext, -⟩ := holds_advance_ne hholds (by rw [hlength]; omega)
      have hadding : min (onsets + n) target < min target (preferred m onsets steps).length := by
        rw [hlength]
        omega
      have hmore : min (onsets + n) target + 1 = min (onsets + (n + 1)) target := by omega
      rw [Strategy.next?, decide_eq_true hadding, if_pos rfl, ih,
        concentrate_preferred m (by omega), hmore] at hnext
      exact (Option.some.inj hnext).symm
    · have hdone : min (onsets + n) target = min target (preferred m onsets steps).length := by
        rw [hlength]
        omega
      rw [hdone] at hholds
      rw [(holds_advance_eq hholds).1, ih]
      congr 1
      omega

/-- A transformation goes one onset a trigger toward the nearest to its target that the steps allow,
and stays there. Its count of onsets is that of the pattern it shows, so that the next pattern is
always found and a trigger changes the pattern just as long as the goal is not reached. What is
shown on the way is Euclidean or anti-Euclidean anew, or differs from the pattern before in one
step; Barlow's metric keeps the downbeat to the last. -/
theorem transformation_after (base : Pattern) (target : Nat) (strategy : Strategy) (seed : UInt64)
    (n : Nat) :
    let goal := min target base.length
    let e := after n base (.transform target strategy) seed
    e.current.length = base.length ∧
    e.current.onsetCount = approached goal n base.onsetCount ∧
    e.onsets = e.current.onsetCount ∧
    (e.onsets ≠ goal →
      (strategy.next? (e.onsets < goal) (toward goal e.onsets) e.current).isSome = true) ∧
    (e.changesNext = true ↔ e.current.onsetCount ≠ goal) ∧
    (e.isSettled = true ↔ e.current.onsetCount = goal) ∧
    (e.current.onsetCount = goal → ∀ later, (advance^[later] e).current = e.current) ∧
    (0 < n → base.onsetCount ≠ goal →
      (strategy = .euclidean → e.current = euclidean e.current.onsetCount base.length) ∧
      (strategy = .dilcue → e.current = dilcue e.current.onsetCount base.length)) ∧
    (∀ m, strategy = .flip m → e.current.onsetCount ≠ goal →
      ∃ i < base.length, ∀ j, e.advance.current.isOnset j ≠ e.current.isOnset j ↔ j = i) ∧
    (strategy = .flip .barlow → 1 < e.current.onsetCount → e.current.isOnset 0 = true →
      e.advance.current.isOnset 0 = true) := by
  intro goal e
  have h : Holds base target strategy (approached goal n base.onsetCount) e :=
    holds_after base target strategy seed n
  have hcount := h.count_eq
  refine ⟨h.length_eq, hcount, h.onsets_eq.trans hcount.symm, ?_, ?_, ?_, ?_, ?_, ?_, ?_⟩
  · intro hne
    rw [h.onsets_eq] at hne ⊢
    rw [(holds_advance_ne h hne).1, Option.isSome_some]
  · rw [hcount]
    exact holds_changesNext h
  · rw [hcount]
    exact holds_isSettled h
  · intro hgoal later
    rw [← hcount, hgoal] at h
    exact (frozen h later).1
  · intro hn hne
    rw [hcount]
    constructor
    · rintro rfl
      exact current_after_of_anew (fun _ _ _ => rfl) hn hne
    · rintro rfl
      exact current_after_of_anew (fun _ _ _ => rfl) hn hne
  · rintro m rfl hne
    rw [hcount] at hne
    obtain ⟨i, hi, honly, -⟩ := holds_advance_flip h hne
    exact ⟨i, hi, honly⟩
  · rintro rfl hmany honset
    rw [hcount] at hmany
    exact holds_downbeat h hmany honset

/-- One onset of four moves to three, anew and by a metric, and four of four keep the downbeat. -/
theorem transformation_after_of_four :
    (after 1 (.ofOnsets [0] 4) (.transform 3 .euclidean) 0).current = euclidean 2 4 ∧
    (∃ i < 4, ∀ j,
      (after 1 (.ofOnsets [0] 4) (.transform 3 (.flip .wolrab)) 0).advance.current.isOnset j ≠
        (after 1 (.ofOnsets [0] 4) (.transform 3 (.flip .wolrab)) 0).current.isOnset j ↔ j = i) ∧
    (∀ later, (advance^[later] (after 2 (.ofOnsets [0] 4) (.transform 3 .dilcue) 0)).current =
      dilcue 3 4) ∧
    (after 0 (.full 4) (.transform 0 (.flip .barlow)) 0).advance.current.isOnset 0 = true := by
  refine ⟨?_, ?_, ?_, ?_⟩
  · obtain ⟨-, hcount, -, -, -, -, -, hanew, -⟩ :=
      transformation_after (.ofOnsets [0] 4) 3 .euclidean 0 1
    rw [(hanew (by decide) (by decide)).1 rfl, hcount]
    rfl
  · obtain ⟨-, hcount, -, -, -, -, -, -, hflip, -⟩ :=
      transformation_after (.ofOnsets [0] 4) 3 (.flip .wolrab) 0 1
    exact hflip .wolrab rfl (by rw [hcount]; decide)
  · obtain ⟨-, hcount, -, -, -, -, hfrozen, hanew, -⟩ :=
      transformation_after (.ofOnsets [0] 4) 3 .dilcue 0 2
    intro later
    rw [hfrozen (by rw [hcount]; decide) later, (hanew (by decide) (by decide)).2 rfl, hcount]
    rfl
  · obtain ⟨-, -, -, -, -, -, -, -, -, hkeeps⟩ :=
      transformation_after (.full 4) 0 (.flip .barlow) 0 0
    exact hkeeps rfl (by decide) (by decide)

end Evolution

end Rhythm
