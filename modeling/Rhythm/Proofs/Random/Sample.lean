import Mathlib.Data.List.Nodup
import Mathlib.Data.List.Range
import Rhythm.Random.Sample

/-! What samples hold, whatever words the generator gives: as many numbers as were asked for, no two
of them equal, and all below the bound. -/
namespace Rhythm.Random

variable {α β : Type} {n fuel length amount start : Nat}

/-- What is drawn has a property, wherever the generator stands. -/
def Yields (d : Draw α) (P : α → Prop) : Prop := ∀ rng, P (d rng).1

theorem yields_pure {P : α → Prop} {a : α} (h : P a) : Yields (pure a) P := by
  intro rng
  exact h

theorem Yields.bind {P : α → Prop} {Q : β → Prop} {d : Draw α} {f : α → Draw β}
    (hd : Yields d P) (hf : ∀ a, P a → Yields (f a) Q) : Yields (d >>= f) Q := by
  intro rng
  exact hf _ (hd rng) _

theorem Yields.imp {P Q : α → Prop} {d : Draw α} (hd : Yields d P) (h : ∀ a, P a → Q a) :
    Yields d Q := by
  intro rng
  exact h _ (hd rng)

/-- Nothing is known of a draw. -/
theorem yields_any (d : Draw α) : Yields d fun _ => True := by
  intro rng
  trivial

/-- A loop over consecutive numbers keeps what its round keeps. -/
theorem yields_foldlM {I : Nat → α → Prop} {f : α → Nat → Draw α} {a : α}
    (hstep : ∀ j a, I j a → Yields (f a j) (I (j + 1))) (h : I start a) :
    Yields ((List.range' start n).foldlM f a) (I (start + n)) := by
  induction n generalizing start a with
  | zero => exact yields_pure h
  | succ n ih =>
    rw [List.range'_succ, List.foldlM_cons]
    refine (hstep start a h).bind ?_
    intro b hb
    have hrest := ih hb
    rwa [show start + 1 + n = start + (n + 1) by omega] at hrest

/-- The high half of a product with a word is below the other factor. -/
theorem high_half_lt (hpos : 0 < n) (w : UInt32) : w.toNat * n / 0x100000000 < n := by
  have hw := w.toNat_lt
  apply Nat.div_lt_of_lt_mul
  exact Nat.mul_lt_mul_of_pos_right hw hpos

theorem yields_tryBelow (hpos : 0 < n) (fuel : Nat) : Yields (tryBelow n fuel) (· < n) := by
  induction fuel with
  | zero => exact yields_pure hpos
  | succ fuel ih =>
    refine (yields_any word32).bind ?_
    intro w _
    dsimp only
    split
    · exact yields_pure (high_half_lt hpos w)
    · exact ih

theorem yields_below (hpos : 0 < n) : Yields (below n) (· < n) := yields_tryBelow hpos _

/-- So many numbers below a bound, no two of them equal. -/
structure Distinct (length amount : Nat) (positions : List Nat) : Prop where
  nodup : positions.Nodup
  size_eq : positions.length = amount
  lt : ∀ i ∈ positions, i < length

/-- What was collected up to a number are numbers below it; the number itself is free. -/
theorem distinct_cons {chosen : List Nat} {j t : Nat} (h : Distinct j amount chosen)
    (ht : t < j + 1) : Distinct (j + 1) (amount + 1) ((if t ∈ chosen then j else t) :: chosen) := by
  have hnew : (if t ∈ chosen then j else t) ∉ chosen := by
    split
    · intro hj
      have := h.lt j hj
      omega
    · assumption
  refine ⟨List.nodup_cons.2 ⟨hnew, h.nodup⟩, by simp [h.size_eq], ?_⟩
  intro i hi
  rcases List.mem_cons.1 hi with rfl | hi
  · split <;> omega
  · have := h.lt i hi
    omega

theorem yields_collected (h : amount ≤ length) :
    Yields (collected length amount) (Distinct length amount) := by
  have hstart : Distinct (length - amount) 0 [] := ⟨List.nodup_nil, rfl, nofun⟩
  have hround : ∀ j chosen, length - amount ≤ j ∧ Distinct j (j - (length - amount)) chosen →
      Yields (do
        let t ← below (j + 1)
        pure ((if t ∈ chosen then j else t) :: chosen)) fun chosen =>
          length - amount ≤ j + 1 ∧ Distinct (j + 1) (j + 1 - (length - amount)) chosen := by
    intro j chosen hj
    refine (yields_below (Nat.succ_pos j)).bind ?_
    intro t ht
    refine yields_pure ⟨by omega, ?_⟩
    rw [show j + 1 - (length - amount) = j - (length - amount) + 1 by omega]
    exact distinct_cons hj.2 ht
  refine (yields_foldlM (I := fun j chosen => length - amount ≤ j ∧
    Distinct j (j - (length - amount)) chosen) hround ⟨Nat.le_refl _, by simpa using hstart⟩).imp ?_
  intro positions hend
  rw [show length - amount + amount = length by omega,
    show length - (length - amount) = amount by omega] at hend
  exact hend.2

/-- A transposition loses nothing. -/
theorem perm_swapIfInBounds (a : Array Nat) (i j : Nat) :
    (a.swapIfInBounds i j).toList.Perm a.toList := by
  unfold Array.swapIfInBounds
  split
  · split
    · exact (Array.swap_perm _ _).toList
    · exact .rfl
  · exact .rfl

theorem yields_shuffled (h : amount ≤ length) :
    Yields (shuffled length amount) (Distinct length amount) := by
  have hround : ∀ i (a : Array Nat), a.toList.Perm (List.range length) →
      Yields (do
        let j ← below (length - i)
        pure (a.swapIfInBounds i (i + j))) fun a => a.toList.Perm (List.range length) := by
    intro i a ha
    refine (yields_any (below (length - i))).bind ?_
    intro j _
    exact yields_pure ((perm_swapIfInBounds a i (i + j)).trans ha)
  have hstart : (Array.range length).toList.Perm (List.range length) := by
    rw [Array.toList_range]
  unfold shuffled
  rw [List.range_eq_range']
  refine (yields_foldlM hround hstart).bind ?_
  intro a ha
  refine yields_pure ⟨?_, ?_, ?_⟩
  · exact (ha.nodup_iff.2 List.nodup_range).sublist (List.take_sublist ..)
  · have hlength := ha.length_eq
    rw [List.length_range] at hlength
    rw [List.length_take]
    omega
  · intro i hi
    exact List.mem_range.1 (ha.subset (List.mem_of_mem_take hi))

theorem yields_sample (h : amount ≤ length) :
    Yields (sample length amount) (Distinct length amount) := by
  unfold sample
  split
  · exact yields_shuffled h
  · exact yields_collected h

end Rhythm.Random
