import Mathlib.Algebra.Order.Field.Rat
import Mathlib.Tactic.FieldSimp
import Mathlib.Tactic.Linarith
import Mathlib.Tactic.Ring
import Rhythm.Circle

/-! The circle of steps. A point of one division of the circle has one nearest position in another
division; midway between two positions it is the later one. -/
namespace Rhythm

variable {a b n q m num den : Nat} {z : Int}

/-- Around the circle, point `a` of `n` is within half a step of position `q` of `m`. Midway between
two positions it is near the later one only. -/
def Near (a n q m : Nat) : Prop := ∃ turns : Int,
  -(1 / (2 * m) : ℚ) ≤ a / n + turns - q / m ∧ (a / n + turns - q / m : ℚ) < 1 / (2 * m)

/-- The bounds of a rounded quotient, without fractions. -/
theorem roundHalfUp_eq_iff (hden : 0 < den) : (roundHalfUp num den : Int) = z ↔
    (2 * z - 1) * den ≤ 2 * num ∧ (2 * num : Int) < (2 * z + 1) * den := by
  have hpos : (0 : Int) < 2 * den := by omega
  have hround : (roundHalfUp num den : Int) = (2 * num + den) / (2 * den) := by
    unfold roundHalfUp
    push_cast
    rfl
  have hlow : z ≤ (roundHalfUp num den : Int) ↔ (2 * z - 1) * den ≤ 2 * num := by
    rw [hround, Int.le_ediv_iff_mul_le hpos]
    constructor <;> intro h <;> linarith
  have hhigh : (roundHalfUp num den : Int) < z + 1 ↔ (2 * num : Int) < (2 * z + 1) * den := by
    rw [hround, Int.ediv_lt_iff_lt_mul hpos]
    constructor <;> intro h <;> linarith
  rw [← hlow, ← hhigh]
  omega

/-- Half steps of both divisions, counted in whole numbers. -/
theorem near_iff (hn : 0 < n) (hm : 0 < m) : Near a n q m ↔ ∃ turns : Int,
    (2 * q - 1) * (n : Int) ≤ 2 * (m * (a + turns * n)) ∧
      2 * (m * (a + turns * n)) < (2 * q + 1) * (n : Int) := by
  have hscale : (0 : ℚ) < 2 * m * n := by positivity
  have hsource : (n : ℚ) ≠ 0 := by positivity
  have htarget : (m : ℚ) ≠ 0 := by positivity
  have hhalf : (1 / (2 * m) : ℚ) = n / (2 * m * n) := by field_simp
  apply exists_congr
  intro turns
  have hplace : (a / n + turns - q / m : ℚ) =
      (2 * (m * (a + turns * n)) - 2 * q * n) / (2 * m * n) := by field_simp
  have hlow : -(n : ℚ) ≤ 2 * (m * (a + turns * n)) - 2 * q * n ↔
      (2 * q - 1) * (n : Int) ≤ 2 * (m * (a + turns * n)) := by
    rw [← Int.cast_le (R := ℚ)]
    push_cast
    constructor <;> intro h <;> linarith
  have hhigh : (2 * (m * (a + turns * n)) - 2 * q * n : ℚ) < n ↔
      2 * (m * (a + turns * n)) < (2 * q + 1) * (n : Int) := by
    rw [← Int.cast_lt (R := ℚ)]
    push_cast
    constructor <;> intro h <;> linarith
  rw [hplace, hhalf, ← neg_div, div_le_div_iff_of_pos_right hscale,
    div_lt_div_iff_of_pos_right hscale, hlow, hhigh]

/-- The nearest step is the only position that a point is near to. -/
theorem nearestStep_eq_iff (hn : 0 < n) (hm : 0 < m) :
    nearestStep a n m = q ↔ q < m ∧ Near a n q m := by
  -- The rounded quotient counts whole turns too; leaving them out is what makes it a position.
  have hround : ∀ z : Int, (roundHalfUp (a * m) n : Int) = z ↔
      (2 * z - 1) * n ≤ 2 * (m * a) ∧ (2 * (m * a) : Int) < (2 * z + 1) * n := by
    intro z
    have h : (roundHalfUp (a * m) n : Int) = z ↔ _ := roundHalfUp_eq_iff hn
    rw [Nat.cast_mul, Int.mul_comm (a : Int)] at h
    exact h
  unfold nearestStep
  rw [near_iff hn hm]
  constructor
  · rintro rfl
    refine ⟨Nat.mod_lt _ hm, -(roundHalfUp (a * m) n / m : Nat), ?_⟩
    have hbounds := (hround _).1 rfl
    have hturns : ((roundHalfUp (a * m) n % m : Nat) : Int) =
        roundHalfUp (a * m) n - m * (roundHalfUp (a * m) n / m : Nat) := by
      have h := Nat.mod_add_div (roundHalfUp (a * m) n) m
      have hcast : ((roundHalfUp (a * m) n % m + m * (roundHalfUp (a * m) n / m) : Nat) : Int) =
          roundHalfUp (a * m) n := congrArg Nat.cast h
      push_cast at hcast ⊢
      linarith
    rw [hturns]
    constructor <;> linarith
  · rintro ⟨hq, turns, hlow, hhigh⟩
    have hplace : (roundHalfUp (a * m) n : Int) = q - m * turns := by
      apply (hround _).2
      constructor <;> linarith
    have hmod : ((roundHalfUp (a * m) n % m : Nat) : Int) = q := by
      rw [Int.natCast_emod, hplace, Int.sub_mul_emod_self_left]
      exact Int.emod_eq_of_lt (Int.natCast_nonneg q) (by omega)
    exact_mod_cast hmod

/-- On a circle of at least as many steps, no position is near to two points. -/
theorem Near.unique (hn : 0 < n) (hle : n ≤ m) (ha : a < n) (hb : b < n) (h : Near a n q m)
    (h' : Near b n q m) : a = b := by
  have hm : 0 < m := Nat.lt_of_lt_of_le hn hle
  obtain ⟨turns, hlow, hhigh⟩ := (near_iff hn hm).1 h
  obtain ⟨turns', hlow', hhigh'⟩ := (near_iff hn hm).1 h'
  -- The two points are less than one of `m` steps apart, so less than one of their own.
  have hclose : ∀ x y : Int, (m * x - m * y : Int) < n → x ≤ y := by
    intro x y hxy
    have hstep : (m * x : Int) < m * (y + 1) := by
      rw [Int.mul_add, Int.mul_one]
      omega
    have := Int.lt_of_mul_lt_mul_left hstep (Int.natCast_nonneg m)
    omega
  have hsame : (a + turns * n : Int) = b + turns' * n := by
    apply Int.le_antisymm
    · apply hclose
      linarith
    · apply hclose
      linarith
  have hmod : (a % n : Int) = b % n := by
    rw [← Int.add_mul_emod_self_right a turns n, hsame, Int.add_mul_emod_self_right]
  rw [Int.emod_eq_of_lt (by omega) (by omega), Int.emod_eq_of_lt (by omega) (by omega)] at hmod
  exact_mod_cast hmod

/-- Points of a circle go to different steps of a circle that has at least as many. -/
theorem nearestStep_inj (hle : n ≤ m) (ha : a < n) (hb : b < n)
    (h : nearestStep a n m = nearestStep b n m) : a = b := by
  have hn : 0 < n := by omega
  have hm : 0 < m := by omega
  obtain ⟨-, hnear⟩ := (nearestStep_eq_iff hn hm).1 h
  obtain ⟨-, hnear'⟩ := (nearestStep_eq_iff hn hm).1 (rfl : nearestStep b n m = _)
  exact hnear.unique hn hle ha hb hnear'

/-- Half a step of a circle of more steps is less than half a step. -/
theorem half_step_lt (hn : 0 < n) (hlt : n < m) : (1 / (2 * m) : ℚ) < 1 / (2 * n) := by
  have hpos : (0 : ℚ) < 2 * n := by positivity
  have hmore : (2 * n : ℚ) < 2 * m := by
    have : (n : ℚ) < m := by exact_mod_cast hlt
    linarith
  exact div_lt_div_of_pos_left one_pos hpos hmore

/-- A position of a circle of more steps is near to the point that it is nearest to. -/
theorem Near.symm (hn : 0 < n) (hlt : n < m) (h : Near a n q m) : Near q m a n := by
  obtain ⟨turns, hlow, hhigh⟩ := h
  have hhalf := half_step_lt hn hlt
  refine ⟨-turns, ?_, ?_⟩ <;> push_cast <;> linarith

end Rhythm
