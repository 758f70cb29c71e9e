import Mathlib.Order.Bounds.Basic
import Rhythm.Accent
import Rhythm.Proofs.Generator.Evenness
import Rhythm.Proofs.Pattern.Onsets

/-! Accents over a rhythm without end. The cycle lists them until rhythm and accent line up again;
read around its end it gives the accent of every step, however far. -/
namespace Rhythm

variable {rhythm accent p : Pattern} {steps : List Bool} {mode : AccentMode} {c : AccentCycle}
  {i k n q s : Nat}

namespace Pattern

/-- The onsets before a step of the pattern repeated without end. -/
def onsetsBefore (p : Pattern) (step : Nat) : Nat := pulsesFrom p.steps 0 step

theorem onsetsBefore_eq_countP (p : Pattern) (s : Nat) :
    p.onsetsBefore s = (List.range s).countP p.cyclic := by
  rw [onsetsBefore, pulsesFrom_steps]
  simp only [Nat.zero_add]

theorem onsetsBefore_succ (p : Pattern) (s : Nat) :
    p.onsetsBefore (s + 1) = p.onsetsBefore s + if p.cyclic s then 1 else 0 := by
  rw [onsetsBefore_eq_countP, onsetsBefore_eq_countP, List.range_succ, List.countP_append,
    List.countP_singleton]

theorem onsetsBefore_mono (p : Pattern) (h : i ≤ n) : p.onsetsBefore i ≤ p.onsetsBefore n := by
  obtain ⟨k, rfl⟩ := Nat.exists_eq_add_of_le h
  unfold onsetsBefore
  rw [pulsesFrom_add]
  exact Nat.le_add_right ..

theorem onsetsBefore_length (p : Pattern) : p.onsetsBefore p.length = p.onsetCount := by
  have hall := pulsesFrom_zero (Nat.le_refl p.steps.length)
  rwa [List.take_length] at hall

/-- Every round has the onsets of the pattern. -/
theorem onsetsBefore_add_rounds (p : Pattern) (q i : Nat) :
    p.onsetsBefore (q * p.length + i) = q * p.onsetCount + p.onsetsBefore i := by
  have hround : ∀ j, p.onsetsBefore (p.length + j) = p.onsetCount + p.onsetsBefore j := by
    intro j
    have hnext : pulsesFrom p.steps p.length j = pulsesFrom p.steps 0 j :=
      pulsesFrom_add_length p.steps 0 j
    rw [← onsetsBefore_length]
    unfold onsetsBefore
    rw [pulsesFrom_add, Nat.zero_add, hnext]
  induction q with
  | zero => simp
  | succ q ih =>
    have hplace : (q + 1) * p.length + i = p.length + (q * p.length + i) := by
      rw [Nat.succ_mul]
      omega
    rw [hplace, hround, ih, Nat.succ_mul]
    omega

theorem onsetsBefore_rounds (p : Pattern) (q : Nat) :
    p.onsetsBefore (q * p.length) = q * p.onsetCount := p.onsetsBefore_add_rounds q 0

/-- Cycles of so many rounds, and what is left after the last whole one. -/
theorem onsetsBefore_eq_cycles (p : Pattern) (q s : Nat) : p.onsetsBefore s =
    s / (q * p.length) * (q * p.onsetCount) + p.onsetsBefore (s % (q * p.length)) := by
  have hcycles : s / (q * p.length) * (q * p.onsetCount) =
      s / (q * p.length) * q * p.onsetCount := (Nat.mul_assoc ..).symm
  rw [hcycles, ← onsetsBefore_add_rounds, Nat.mul_assoc, Nat.div_add_mod']

end Pattern

theorem getElem?_rounds (h : i < q * steps.length) :
    (List.replicate q steps).flatten[i]? = steps[i % steps.length]? := by
  induction q generalizing i with
  | zero => simp at h
  | succ q ih =>
    rw [List.replicate_succ, List.flatten_cons]
    by_cases hi : i < steps.length
    · rw [List.getElem?_append_left hi, Nat.mod_eq_of_lt hi]
    · rw [Nat.succ_mul] at h
      rw [List.getElem?_append_right (by omega), ih (by omega), ← Nat.mod_eq_sub_mod (by omega)]

theorem length_rounds (q : Nat) (steps : List Bool) :
    (List.replicate q steps).flatten.length = q * steps.length := by
  simp

/-- The onsets before a step are those of the rounds written out. -/
theorem count_take_rounds (h : i ≤ q * p.length) :
    ((List.replicate q p.steps).flatten.take i).count true = p.onsetsBefore i := by
  have hlength := length_rounds q p.steps
  change _ = q * p.length at hlength
  rw [← pulsesFrom_zero (by omega), Pattern.onsetsBefore_eq_countP]
  apply List.countP_congr
  intro k hk
  have hlt : k < q * p.length := by
    have := List.mem_range.1 hk
    omega
  rw [Nat.zero_add, hlength, Nat.mod_eq_of_lt hlt, getElem?_rounds hlt]
  rfl

namespace AccentCycle

theorem length_dealt (accent : Pattern) (k : Nat) (steps : List Bool) :
    (dealt accent k steps).length = steps.length := by
  fun_induction dealt accent k steps with
  | case1 => rfl
  | case2 k steps ih => simp [ih]
  | case3 k steps ih => simp [ih]

/-- An onset takes the entry of the accent that has the number of the onset. -/
theorem dealt_getElem? (accent : Pattern) (k : Nat) (steps : List Bool) (i : Nat) :
    (dealt accent k steps)[i]?.getD false =
      (steps[i]?.getD false && accent.cyclic (k + (steps.take i).count true)) := by
  fun_induction dealt accent k steps generalizing i with
  | case1 => simp
  | case2 k steps ih =>
    cases i with
    | zero => simp
    | succ i => simp [ih]
  | case3 k steps ih =>
    cases i with
    | zero => simp
    | succ i =>
      have hnumber : k + 1 + (steps.take i).count true = k + ((steps.take i).count true + 1) := by
        omega
      simp [ih, hnumber]

theorem rounds_pos (rhythm accent : Pattern) : 0 < rounds rhythm accent := by
  unfold rounds
  split
  · exact Nat.one_pos
  · next hsome =>
    have honsets := Nat.pos_of_ne_zero hsome
    exact Nat.div_pos (Nat.le_of_dvd (Nat.lcm_pos honsets accent.length_pos')
      (Nat.dvd_lcm_left ..)) honsets

/-- The rounds have as many onsets as the accent has entries, or a multiple of them. -/
theorem dvd_onsets_rounds (rhythm accent : Pattern) :
    accent.length ∣ rounds rhythm accent * rhythm.onsetCount := by
  unfold rounds
  split
  · next hnone => simp [hnone]
  · rw [Nat.div_mul_cancel (Nat.dvd_lcm_left ..)]
    exact Nat.dvd_lcm_right ..

/-- No fewer rounds do. -/
theorem rounds_le (hq : 0 < q) (h : accent.length ∣ q * rhythm.onsetCount) :
    rounds rhythm accent ≤ q := by
  unfold rounds
  split
  · exact hq
  · next hsome =>
    have honsets := Nat.pos_of_ne_zero hsome
    have hcommon : rhythm.onsetCount.lcm accent.length ∣ q * rhythm.onsetCount :=
      Nat.lcm_dvd (Nat.dvd_mul_left ..) h
    exact Nat.div_le_of_le_mul (Nat.mul_comm q _ ▸ Nat.le_of_dvd (Nat.mul_pos hq honsets) hcommon)

theorem length_byOnset (rhythm accent : Pattern) :
    (of rhythm accent .byOnset).length = rounds rhythm accent * rhythm.length :=
  (length_dealt ..).trans (length_rounds ..)

theorem length_byStep (rhythm accent : Pattern) :
    (of rhythm accent .byStep).length = rhythm.length.lcm accent.length := by
  simp [of, length]

/-- Whether a step is accented when rhythm and accent are repeated without end. -/
def endless (rhythm accent : Pattern) : AccentMode → Nat → Bool
  | .byOnset, step => rhythm.cyclic step && accent.cyclic (rhythm.onsetsBefore step)
  | .byStep, step => rhythm.cyclic step && accent.cyclic step

/-- The table has the accents of its own steps. -/
theorem table_getElem? (hi : i < (of rhythm accent mode).length) :
    (of rhythm accent mode).table[i]?.getD false = endless rhythm accent mode i := by
  cases mode with
  | byOnset =>
    rw [length_byOnset] at hi
    have hstep : (List.replicate (rounds rhythm accent) rhythm.steps).flatten[i]?.getD false =
        rhythm.cyclic i := by
      rw [getElem?_rounds hi]
      rfl
    change (dealt accent 0 _)[i]?.getD false = _
    rw [dealt_getElem?, hstep, count_take_rounds (Nat.le_of_lt hi), Nat.zero_add]
    rfl
  | byStep =>
    rw [length_byStep] at hi
    simp [of, endless, hi]

/-- After a whole cycle the accents come again. -/
theorem endless_mod (rhythm accent : Pattern) (mode : AccentMode) (s : Nat) :
    endless rhythm accent mode (s % (of rhythm accent mode).length) =
      endless rhythm accent mode s := by
  cases mode with
  | byOnset =>
    rw [length_byOnset]
    have honsets := rhythm.onsetsBefore_eq_cycles (rounds rhythm accent) s
    obtain ⟨share, hshare⟩ := dvd_onsets_rounds rhythm accent
    have hentry : accent.cyclic (rhythm.onsetsBefore s) =
        accent.cyclic (rhythm.onsetsBefore (s % (rounds rhythm accent * rhythm.length))) := by
      unfold Pattern.cyclic
      rw [honsets, hshare, Nat.mul_left_comm, Nat.mul_add_mod]
    simp only [endless, hentry, Pattern.cyclic_mod (Nat.dvd_mul_left ..)]
  | byStep =>
    rw [length_byStep]
    simp only [endless, Pattern.cyclic_mod (Nat.dvd_lcm_left ..),
      Pattern.cyclic_mod (Nat.dvd_lcm_right ..)]

theorem length_pos (rhythm accent : Pattern) (mode : AccentMode) :
    0 < (of rhythm accent mode).length := by
  cases mode with
  | byOnset =>
    rw [length_byOnset]
    exact Nat.mul_pos (rounds_pos rhythm accent) rhythm.length_pos'
  | byStep =>
    rw [length_byStep]
    exact Nat.lcm_pos rhythm.length_pos' accent.length_pos'

theorem isAccented_eq (rhythm accent : Pattern) (mode : AccentMode) (s : Nat) :
    (of rhythm accent mode).isAccented s = endless rhythm accent mode s := by
  rw [← endless_mod]
  exact table_getElem? (Nat.mod_lt s (length_pos rhythm accent mode))

/-- The cycle ends at the first round after which the accent begins anew. -/
theorem length_isLeast (rhythm accent : Pattern) :
    IsLeast {n | 0 < n ∧ rhythm.length ∣ n ∧ accent.length ∣ rhythm.onsetsBefore n}
      (of rhythm accent .byOnset).length := by
  constructor
  · refine ⟨length_pos rhythm accent .byOnset, ?_, ?_⟩
    · rw [length_byOnset]
      exact Nat.dvd_mul_left ..
    · rw [length_byOnset, Pattern.onsetsBefore_rounds]
      exact dvd_onsets_rounds rhythm accent
  · rintro n ⟨hpos, ⟨q, rfl⟩, hentries⟩
    rw [Nat.mul_comm, Pattern.onsetsBefore_rounds] at hentries
    have hq := Nat.pos_of_mul_pos_left hpos
    rw [length_byOnset, Nat.mul_comm]
    exact Nat.mul_le_mul_left _ (rounds_le hq hentries)

/-- Onsets are numbered from the start of a cycle on. -/
theorem onsetNumber?_eq (rhythm accent : Pattern) (s : Nat) :
    (of rhythm accent .byOnset).onsetNumber? s = if rhythm.cyclic s then
      some (rhythm.onsetsBefore s % rhythm.onsetsBefore (of rhythm accent .byOnset).length)
    else none := by
  have hdvd : rhythm.length ∣ (of rhythm accent .byOnset).length := by
    rw [length_byOnset]
    exact Nat.dvd_mul_left ..
  have hrhythm : (of rhythm accent .byOnset).rhythm = rhythm := rfl
  have hstep := Pattern.cyclic_mod hdvd s
  unfold onsetNumber?
  dsimp only
  rw [hrhythm, hstep, ← Pattern.onsetsBefore_eq_countP]
  split
  · next honset =>
    have hlast := rhythm.onsetsBefore_mono
      (Nat.succ_le_of_lt (Nat.mod_lt s (length_pos rhythm accent .byOnset)))
    rw [Pattern.onsetsBefore_succ, hstep, if_pos honset] at hlast
    have hwithin := Nat.mod_eq_of_lt (Nat.lt_of_succ_le hlast)
    have hcycles := rhythm.onsetsBefore_eq_cycles (rounds rhythm accent) s
    rw [← length_byOnset, ← Pattern.onsetsBefore_rounds, ← length_byOnset] at hcycles
    rw [hcycles, Nat.mul_add_mod_self_right, hwithin]
  · rfl

/-- The place in the table has to be there. -/
def isAccented? (c : AccentCycle) (step : Nat) : Option Bool := do
  let place ← Checked.mod step c.length
  c.table[place]?

/-- The numbers of the steps must not be too large. -/
def round? (c : AccentCycle) (start : Nat) : Option (List Bool) :=
  (List.range c.rhythm.length).mapM fun i => do
    let step ← Checked.word (start + i)
    c.isAccented? step

theorem isAccented?_eq (hpos : 0 < c.length) (s : Nat) :
    c.isAccented? s = some (c.isAccented s) := by
  have hlt : s % c.length < c.table.length := Nat.mod_lt s hpos
  unfold isAccented? isAccented
  rw [Checked.bind_eq (Checked.mod_eq hpos), List.getElem?_eq_getElem hlt, Option.getD_some]

theorem round?_eq (hpos : 0 < c.length) (hs : s + c.rhythm.length ≤ Text.maxWord) :
    c.round? s = some (c.round s) := by
  apply Checked.mapM_eq
  intro i hi
  have hlt := List.mem_range.1 hi
  have hword : Checked.word (s + i) = some (s + i) := if_pos (by omega)
  rw [Checked.bind_eq hword, isAccented?_eq hpos]

/-- The cycle of accents, read around its end, is the rhythm without end: onset number `k` takes
entry `k` of the accent, or the onset on a step takes the entry of that step, both around the end of
the accent. By onsets the cycle is the shortest that has whole rounds and uses up the accent a whole
number of times, and onsets are numbered by their place in it. A round from any step on lists the
accents of its steps, as long as their numbers are numbers of a machine. -/
theorem cycle_without_end (rhythm accent : Pattern) (step : Nat) :
    let cycle := of rhythm accent .byOnset
    (cycle.isAccented step = true ↔
      rhythm.isOnset (step % rhythm.length) = true ∧
        accent.isOnset (rhythm.onsetsBefore step % accent.length) = true) ∧
    ((of rhythm accent .byStep).isAccented step = true ↔
      rhythm.isOnset (step % rhythm.length) = true ∧
        accent.isOnset (step % accent.length) = true) ∧
    IsLeast {n | 0 < n ∧ rhythm.length ∣ n ∧ accent.length ∣ rhythm.onsetsBefore n} cycle.length ∧
    (rhythm.onsetCount = 0 → cycle.length = rhythm.length) ∧
    cycle.onsetNumber? step = (if rhythm.isOnset (step % rhythm.length) then
      some (rhythm.onsetsBefore step % rhythm.onsetsBefore cycle.length) else none) ∧
    cycle.round step = (List.range rhythm.length).map (fun i => cycle.isAccented (step + i)) ∧
    (step + rhythm.length ≤ Text.maxWord → cycle.round? step = some (cycle.round step)) := by
  intro cycle
  refine ⟨?_, ?_, length_isLeast rhythm accent, ?_, onsetNumber?_eq rhythm accent step, rfl, ?_⟩
  · rw [isAccented_eq]
    exact Bool.and_eq_true_iff
  · rw [isAccented_eq]
    exact Bool.and_eq_true_iff
  · intro hnone
    have hrounds : rounds rhythm accent = 1 := if_pos hnone
    rw [length_byOnset, hrounds, Nat.one_mul]
  · exact round?_eq (length_pos rhythm accent .byOnset)

/-- Three onsets in four steps take two entries in turn, and four rests are one round. -/
theorem cycle_without_end_of_four :
    5 + 4 ≤ Text.maxWord ∧
    (of (.ofOnsets [0, 2, 3] 4) (.ofOnsets [1] 2) .byOnset).round? 5 =
      some [false, false, true, false] ∧
    (Pattern.rests 4).onsetCount = 0 ∧
    (of (.rests 4) (.ofOnsets [1] 2) .byOnset).length = 4 := by
  obtain ⟨-, -, -, -, -, -, hround⟩ :=
    cycle_without_end (.ofOnsets [0, 2, 3] 4) (.ofOnsets [1] 2) 5
  obtain ⟨-, -, -, hnone, -⟩ := cycle_without_end (.rests 4) (.ofOnsets [1] 2) 0
  refine ⟨by decide, ?_, by decide, ?_⟩
  · rw [hround (by decide)]
    decide
  · rw [hnone (by decide)]
    decide

end AccentCycle

end Rhythm
