import Rhythm.Pattern

/-! A pattern repeated without end, under the operations that keep its length. -/
namespace Rhythm.Pattern

variable {p : Pattern} {slots : List Bool} {n : Nat}

theorem cyclic_of_lt {i : Nat} (h : i < p.length) : p.cyclic i = p.isOnset i := by
  rw [cyclic, Nat.mod_eq_of_lt h]

/-- A pattern is repeated after every multiple of its length. -/
theorem cyclic_mod (h : p.length ∣ n) (i : Nat) : p.cyclic (i % n) = p.cyclic i := by
  unfold cyclic
  rw [Nat.mod_mod_of_dvd i h]

@[simp] theorem length_rotate (p : Pattern) (k : Int) : (p.rotate k).length = p.length := by
  rw [rotate, length_tabulate, clampSteps_length]

@[simp] theorem length_invert (p : Pattern) : p.invert.length = p.length := by
  simp [invert, length]

@[simp] theorem length_reverse (p : Pattern) : p.reverse.length = p.length := by
  simp [reverse, length]

@[simp] theorem length_alignToDownbeat (p : Pattern) : p.alignToDownbeat.length = p.length := by
  unfold alignToDownbeat
  split
  · exact length_rotate p _
  · rfl

theorem isOnset_invert {i : Nat} (h : i < p.length) : p.invert.isOnset i = !p.isOnset i := by
  have hsteps : i < p.steps.length := h
  simp [isOnset, invert, hsteps]

theorem isOnset_reverse {i : Nat} (h : i < p.length) :
    p.reverse.isOnset i = p.isOnset (p.length - 1 - i) := by
  have hsteps : i < p.steps.length := h
  simp only [isOnset, reverse, List.getElem?_reverse hsteps, length]

/-- Step `i` of a rotated pattern is the step `k` places before. -/
theorem cyclic_rotate (p : Pattern) (k : Int) (i : Nat) :
    (p.rotate k).cyclic i = p.cyclic (((i : Int) - k) % p.length).toNat := by
  have hpos : (0 : Int) < p.length := by
    have := p.length_pos'
    omega
  have hlt : i % p.length < p.length := Nat.mod_lt _ p.length_pos
  have hmod : ((i % p.length : Nat) - k : Int) % p.length = ((i : Int) - k) % p.length := by
    rw [Int.natCast_emod, Int.emod_sub_emod]
  have hstep : (((i : Int) - k) % p.length).toNat < p.length := by
    have := Int.emod_lt_of_pos ((i : Int) - k) hpos
    have := Int.emod_nonneg ((i : Int) - k) (Int.ne_of_gt hpos)
    omega
  rw [cyclic_of_lt hstep, cyclic, length_rotate, rotate, isOnset_tabulate, clampSteps_length, hmod]
  simp [hlt]

/-- Patterns of one length are equal if they are repeated without end. -/
theorem ext_cyclic {p q : Pattern} (hl : p.length = q.length)
    (h : ∀ i, p.cyclic i = q.cyclic i) : p = q := by
  apply ext_isOnset hl
  intro i hi
  have hcyclic := h i
  rw [cyclic_of_lt hi, cyclic_of_lt (hl ▸ hi)] at hcyclic
  exact hcyclic

/-- Turned twice, a pattern is turned by the sum. -/
theorem rotate_rotate (p : Pattern) (a b : Int) : (p.rotate a).rotate b = p.rotate (a + b) := by
  apply ext_cyclic
  · simp only [length_rotate]
  · intro i
    have hpos := p.length_pos'
    have hstep := Int.toNat_of_nonneg (Int.emod_nonneg ((i : Int) - b) (b := p.length) (by omega))
    have hsum : ((i : Int) - b) - a = i - (a + b) := by omega
    rw [cyclic_rotate, cyclic_rotate, cyclic_rotate, length_rotate, hstep, Int.emod_sub_emod, hsum]

/-- Turned by whole rounds, a pattern stays where it is. -/
theorem rotate_rounds (p : Pattern) (k : Int) : p.rotate (k * p.length) = p := by
  apply ext_cyclic (length_rotate p _)
  intro i
  rw [cyclic_rotate, Int.sub_mul_emod_self_right, ← Int.natCast_emod, Int.toNat_natCast, cyclic,
    Nat.mod_mod, ← cyclic]

theorem cyclic_invert (p : Pattern) (i : Nat) : p.invert.cyclic i = !p.cyclic i := by
  have hlt : i % p.length < p.length := Nat.mod_lt _ p.length_pos
  rw [cyclic, length_invert, isOnset_invert hlt, cyclic]

theorem clampSteps_clampSteps (n : Nat) : clampSteps (clampSteps n) = clampSteps n :=
  clampSteps_of_le (clampSteps_pos n) (clampSteps_le n)

theorem tabulate_clampSteps (n : Nat) (f : Nat → Bool) :
    tabulate (clampSteps n) f = tabulate n f := by
  apply ext
  simp only [tabulate, clampSteps_clampSteps]

/-- Slots of a length that a pattern can have are the steps of a pattern. -/
theorem steps_tabulate_getD (h : slots.length = clampSteps n) :
    (tabulate n fun i => slots[i]?.getD false).steps = slots := by
  apply List.ext_getElem
  · simp [tabulate, h]
  · intro i hi hs
    simp [tabulate, hs]

end Rhythm.Pattern
