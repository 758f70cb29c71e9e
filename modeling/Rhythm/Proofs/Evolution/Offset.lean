import Mathlib.Data.Int.ModEq
import Mathlib.Tactic.Ring
import Rhythm.Proofs.Pattern.Checked
import Rhythm.Proofs.Performance.Turn

/-! Offsets: each trigger turns the base further, and what is shown is the base turned by the sum of
all steps. Only the remainder of the sum is kept, so that no number becomes too large. -/
namespace Rhythm

variable {base : Pattern} {step k : Int} {seed : UInt64} {m n : Nat} {e : Evolution}

/-- Equal steps come to whole rounds just when their number is a multiple of the length divided by
what it has in common with the step. -/
theorem dvd_mul_step_iff (hpos : 0 < n) (m : Nat) (step : Int) :
    (n : Int) ∣ m * step ↔ n / Int.gcd n step ∣ m := by
  constructor
  · intro h
    have hmod : (m : Int) * step ≡ 0 * step [ZMOD n] := by
      rw [zero_mul]
      exact Int.modEq_zero_iff_dvd.2 h
    have hcancel := hmod.cancel_right_div_gcd (by omega)
    exact_mod_cast Int.modEq_zero_iff_dvd.1 hcancel
  · rintro ⟨rounds, rfl⟩
    obtain ⟨share, hshare⟩ : ((Int.gcd n step : Nat) : Int) ∣ step := Int.gcd_dvd_right ..
    have hcommon : Int.gcd n step ∣ n := by
      exact_mod_cast (Int.gcd_dvd_left (n : Int) step)
    have hlength : ((n / Int.gcd n step : Nat) : Int) * Int.gcd n step = n := by
      exact_mod_cast Nat.div_mul_cancel hcommon
    refine ⟨rounds * share, ?_⟩
    calc ((n / Int.gcd n step * rounds : Nat) : Int) * step
        = ((n / Int.gcd n step : Nat) : Int) * rounds * (Int.gcd n step * share) := by
          rw [← hshare, Nat.cast_mul]
      _ = ((n / Int.gcd n step : Nat) : Int) * Int.gcd n step * (rounds * share) := by ring
      _ = n * (rounds * share) := by rw [hlength]

/-- Remainders of a sum of equal steps come back after so many of them, and not before. -/
theorem emod_mul_step_eq_iff (hpos : 0 < n) (k m : Nat) (step : Int) :
    ((k + m : Nat) * step : Int) % n = (k * step) % n ↔ n / Int.gcd n step ∣ m := by
  have hrest : ((k + m : Nat) * step : Int) - k * step = m * step := by
    rw [Nat.cast_add]
    ring
  rw [← dvd_mul_step_iff hpos, ← hrest, Int.emod_eq_emod_iff_emod_sub_eq_zero]
  exact Int.dvd_iff_emod_eq_zero.symm

namespace Evolution

/-- One trigger with signed numbers of 64 bits, and whether it changed what is shown. What looks the
same after turning is not stored anew. -/
def turn? (e : Evolution) (step : Int) : Option (Bool × Evolution) := do
  let e := { e with triggers := e.triggers + 1 }
  if step = 0 then return (false, e)
  let length ← Checked.int e.base.length
  let further ← Checked.emod step length
  let sum ← Checked.int (e.offset + further)
  let offset ← Checked.emod sum length
  let next ← e.base.rotate? offset
  if next = e.current then return (false, { e with offset })
  return (true, { e with offset, current := next })

/-- An offset that has turned its base by a number of places, of which whole rounds are left out. -/
structure Turned (base : Pattern) (step k : Int) (e : Evolution) : Prop where
  base_eq : e.base = base
  progression_eq : e.progression = .offset step
  offset_eq : e.offset = k % base.length
  current_eq : e.current = base.rotate (k % base.length)

theorem turned_start : Turned base step 0 (start base (.offset step) seed) := by
  refine ⟨rfl, rfl, ?_, ?_⟩
  · rw [Int.zero_emod]
    rfl
  · rw [Int.zero_emod, Pattern.rotate_zero]
    rfl

/-- Adding remainders comes to the remainder of the sum. -/
theorem Turned.next_offset (h : Turned base step k e) :
    (e.offset + step % e.base.length) % e.base.length = (k + step) % base.length := by
  rw [h.offset_eq, h.base_eq]
  exact (Int.add_emod ..).symm

/-- A trigger turns by the step, also by none. -/
theorem advance_offset (h : Turned base step k e) : e.advance =
    { e with
      triggers := e.triggers + 1
      offset := (k + step) % base.length
      current := base.rotate ((k + step) % base.length) } := by
  have hsum := h.next_offset
  obtain ⟨rfl, hprogression, hoffset, hcurrent⟩ := h
  unfold advance turn
  simp only [hprogression, hsum]
  split
  · next hzero => rw [hzero, Int.add_zero, ← hcurrent, ← hoffset]
  · rfl

theorem turned_advance (h : Turned base step k e) : Turned base step (k + step) e.advance := by
  rw [advance_offset h]
  exact ⟨h.base_eq, h.progression_eq, rfl, rfl⟩

/-- A machine that turns does not stop, and it tells whether the base looks different. -/
theorem turn?_eq (h : Turned base step k e) : e.turn? step =
    some (decide (base.rotate ((k + step) % base.length) ≠ base.rotate (k % base.length)),
      e.advance) := by
  have hsum := h.next_offset
  rw [advance_offset h]
  obtain ⟨rfl, hprogression, hoffset, hcurrent⟩ := h
  have hpos := e.base.length_pos'
  have hle := e.base.length_le'
  have hkept := Int.emod_lt_of_pos k (b := e.base.length) (by omega)
  have hkept' := Int.emod_nonneg k (b := e.base.length) (by omega)
  have hfurther := Int.emod_lt_of_pos step (b := e.base.length) (by omega)
  have hfurther' := Int.emod_nonneg step (b := e.base.length) (by omega)
  unfold turn?
  dsimp only
  split
  · next hzero =>
    rw [hzero, Int.add_zero, ← hcurrent, ← hoffset]
    simp
  · rw [Checked.bind_eq (Checked.int_eq (by omega)), Checked.bind_eq (Checked.emod_eq (by omega)),
      Checked.bind_eq (Checked.int_eq (by omega)), Checked.bind_eq (Checked.emod_eq (by omega)),
      Checked.bind_eq (Pattern.rotate?_eq _ _), hsum, ← hcurrent]
    split
    · next hsame =>
      rw [hsame]
      simp
    · next hother => simp [hother]

theorem turned_after (base : Pattern) (step : Int) (seed : UInt64) (n : Nat) :
    Turned base step (n * step) (after n base (.offset step) seed) := by
  induction n with
  | zero =>
    rw [Nat.cast_zero, zero_mul]
    exact turned_start
  | succ n ih =>
    rw [after_succ, Nat.cast_succ, add_mul, one_mul]
    exact turned_advance ih

/-- After so many triggers an offset shows its base turned by the sum of the steps, of which it
keeps the remainder by the length. Every trigger can be done with signed numbers of 64 bits, for
every step, and tells that the pattern changed just when the base looks different than before. What
is shown comes back after the length divided by what it has in common with the step, and the
remainder does not come back before. All this is so because turns add up and whole rounds do
nothing. -/
theorem offset_after (base : Pattern) (step : Int) (seed : UInt64) (n : Nat) :
    let turns := fun n : Nat => (n * step) % (base.length : Int)
    let e := fun n : Nat => after n base (.offset step) seed
    let period := base.length / Int.gcd base.length step
    (e n).offset = turns n ∧
    (e n).current = base.rotate (turns n) ∧
    (e n).turn? step =
      some (decide (base.rotate (turns (n + 1)) ≠ base.rotate (turns n)), e (n + 1)) ∧
    ((e n).changesNext = true ↔ base.rotate (turns (n + 1)) ≠ base.rotate (turns n)) ∧
    (e (n + period)).current = (e n).current ∧
    (∀ m, (e (n + m)).offset = (e n).offset ↔ period ∣ m) ∧
    (∀ (p : Pattern) a b, (p.rotate a).rotate b = p.rotate (a + b)) ∧
    ∀ (p : Pattern) k, p.rotate (k * p.length) = p := by
  intro turns e period
  have h : ∀ n : Nat, Turned base step (n * step) (e n) := turned_after base step seed
  have hnext : ∀ n : Nat, (n * step + step) % (base.length : Int) = turns (n + 1) := by
    intro n
    change _ = ((n + 1 : Nat) * step) % (base.length : Int)
    rw [Nat.cast_succ, add_mul, one_mul]
  have hback : ∀ m, turns (n + m) = turns n ↔ period ∣ m := by
    intro m
    exact emod_mul_step_eq_iff base.length_pos' n m step
  refine ⟨(h n).offset_eq, (h n).current_eq, ?_, ?_, ?_, ?_, Pattern.rotate_rotate,
    Pattern.rotate_rounds⟩
  · have hturn := turn?_eq (h n)
    rw [hnext] at hturn
    rw [hturn]
    exact congrArg (fun d => some (_, d)) after_succ.symm
  · have hlater := (h (n + 1)).current_eq
    rw [changesNext, bne_iff_ne, ← (h n).current_eq, ← hlater]
    exact iff_of_eq (congrArg (fun d : Evolution => d.current ≠ _) after_succ.symm)
  · rw [(h (n + period)).current_eq, (h n).current_eq]
    exact congrArg base.rotate ((hback period).2 (Nat.dvd_refl _))
  · intro m
    rw [(h (n + m)).offset_eq, (h n).offset_eq]
    exact hback m

/-- The least step there is, twice around three places. -/
example : (after 2 (.ofOnsets [0] 3) (.offset (-0x8000000000000000)) 0).offset = 2 ∧
    (after 2 (.ofOnsets [0] 3) (.offset (-0x8000000000000000)) 0).current.bits =
      "001".toList := by decide +kernel

end Evolution

end Rhythm
