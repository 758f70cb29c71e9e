import Rhythm.Proofs.Pattern.Cyclic
import Rhythm.Quantization
import Rhythm.Text.Numeral

/-! The operations on patterns as a machine of 64 bits makes them, with all that can stop it on the
way: a number that is too large, a difference below nought, a division by nought, a place that a
list does not have, and a list of steps that is no pattern. None of this happens. -/
namespace Rhythm

namespace Checked

/-- A count. -/
def word (n : Nat) : Option Nat := if n ≤ Text.maxWord then some n else none

/-- A signed number. -/
def int (n : Int) : Option Int :=
  if -0x8000000000000000 ≤ n ∧ n ≤ 0x7FFFFFFFFFFFFFFF then some n else none

/-- A count out of a signed number. -/
def count (n : Int) : Option Nat := if 0 ≤ n then word n.toNat else none

def sub (a b : Nat) : Option Nat := if b ≤ a then some (a - b) else none

def div (a b : Nat) : Option Nat := if b = 0 then none else some (a / b)

def mod (a b : Nat) : Option Nat := if b = 0 then none else some (a % b)

/-- The remainder that is not negative. The least number divided by -1 would be too large. -/
def emod (a b : Int) : Option Int :=
  if b = 0 ∨ (b = -1 ∧ a = -0x8000000000000000) then none else some (a % b)

/-- The integer nearest to a quotient. -/
def round (num den : Nat) : Option Nat := if den = 0 then none else some (roundHalfUp num den)

/-- A list cut at a place. -/
def split {α : Type} (xs : List α) (n : Nat) : Option (List α × List α) :=
  if n ≤ xs.length then some (xs.take n, xs.drop n) else none

/-- The steps of a pattern. -/
def steps (slots : List Bool) : Option Pattern := (Pattern.ofSteps slots).toOption

end Checked

variable {p q : Pattern} {n k a b : Nat} {slots : List Bool}

namespace Checked

/-- A step that does not stop. -/
theorem bind_eq {α β : Type} {x : Option α} {y : α} (h : x = some y) (f : α → Option β) :
    (x >>= f) = f y := by
  rw [h]
  rfl

theorem word_eq (h : n ≤ maxSteps * maxSteps) : word n = some n :=
  if_pos (Nat.le_trans h (by decide))

theorem int_eq {n : Int} (h : n.natAbs ≤ 2 * maxSteps) : int n = some n := by
  unfold maxSteps at h
  exact if_pos (by omega)

theorem count_eq (h : n ≤ maxSteps) : count n = some n := by
  have hpos : (0 : Int) ≤ n := Int.natCast_nonneg n
  rw [count, if_pos hpos, Int.toNat_natCast, word_eq (Nat.le_trans h (by decide))]

theorem sub_eq (h : b ≤ a) : sub a b = some (a - b) := if_pos h

theorem div_eq (h : 0 < b) : div a b = some (a / b) := if_neg (Nat.ne_of_gt h)

theorem mod_eq (h : 0 < b) : mod a b = some (a % b) := if_neg (Nat.ne_of_gt h)

theorem emod_eq {a b : Int} (h : 0 < b) : emod a b = some (a % b) := if_neg (by omega)

theorem round_eq (h : 0 < b) : round a b = some (roundHalfUp a b) := if_neg (Nat.ne_of_gt h)

theorem split_eq {α : Type} {xs : List α} (h : n ≤ xs.length) :
    split xs n = some (xs.take n, xs.drop n) := if_pos h

/-- Steps are accepted for the pattern that has them. -/
theorem steps_eq (h : p.steps = slots) : steps slots = some p := by
  subst h
  rw [steps, Pattern.ofSteps, dif_pos ⟨p.length_pos, p.length_le⟩]
  rfl

theorem steps_of_getD (hlength : slots.length = p.length)
    (h : ∀ i < p.length, slots[i]?.getD false = p.isOnset i) : steps slots = some p := by
  have hpos : 0 < slots.length := hlength ▸ p.length_pos'
  have hle : slots.length ≤ maxSteps := hlength ▸ p.length_le'
  have hslots : (⟨slots, hpos, hle⟩ : Pattern) = p :=
    Pattern.ext_isOnset hlength fun i hi => h i (hlength ▸ hi)
  exact steps_eq (congrArg Pattern.steps hslots).symm

theorem mapM_eq {α β : Type} {f : α → Option β} {g : α → β} {xs : List α}
    (h : ∀ x ∈ xs, f x = some (g x)) : xs.mapM f = some (xs.map g) := by
  induction xs with
  | nil => rfl
  | cons x xs ih =>
    have hx := h x List.mem_cons_self
    have hxs := ih fun y hy => h y (List.mem_cons_of_mem _ hy)
    rw [List.mapM_cons, hx, hxs]
    rfl

end Checked

namespace Pattern

def rests? (n : Nat) : Option Pattern := Checked.steps (List.replicate (clampSteps n) false)

/-- Onsets are set one after the other, those outside are passed over. -/
def ofOnsets? (positions : List Nat) (n : Nat) : Option Pattern :=
  Checked.steps (positions.foldl (·.set · true) (List.replicate (clampSteps n) false))

def invert? (p : Pattern) : Option Pattern := Checked.steps (p.steps.map (!·))

def reverse? (p : Pattern) : Option Pattern := Checked.steps p.steps.reverse

/-- What is turned beyond the end is cut off and put in front. -/
def rotate? (p : Pattern) (k : Int) : Option Pattern := do
  let length ← Checked.int p.length
  let shift ← Checked.count (← Checked.emod k length)
  if shift = 0 then return p
  let (kept, turned) ← Checked.split p.steps (← Checked.sub p.length shift)
  Checked.steps (turned ++ kept)

def alignToDownbeat? (p : Pattern) : Option Pattern :=
  match p.steps.findIdx? id with
  | none => return p
  | some first => do
    if first = 0 then return p
    let k ← Checked.int first
    let k ← Checked.int (-k)
    p.rotate? k

def extend? (p : Pattern) (n : Nat) : Option Pattern := do
  let slots ← (List.range (clampSteps n)).mapM fun i => do
    let i ← Checked.mod i p.length
    p.steps[i]?
  Checked.steps slots

def append? (p q : Pattern) : Option (Except PatternError Pattern) := do
  let n ← Checked.word (p.length + q.length)
  if maxSteps < n then return .error (.combinedTooLong n)
  let r ← Checked.steps (p.steps ++ q.steps)
  return .ok r

def combine? (how : Merge) (p q : Pattern) : Option (Except PatternError Pattern) := do
  let factor ← Checked.div q.length (p.length.gcd q.length)
  let n ← Checked.word (p.length * factor)
  if maxSteps < n then return .error (.combinedTooLong n)
  let left ← p.extend? n
  let right ← q.extend? n
  let r ← Checked.steps (List.zipWith how.apply left.steps right.steps)
  return .ok r

theorem rests?_eq (n : Nat) : rests? n = some (rests n) := by
  apply Checked.steps_eq
  simp [rests, tabulate, List.map_const']

theorem length_foldl_set (positions : List Nat) (slots : List Bool) :
    (positions.foldl (·.set · true) slots).length = slots.length := by
  induction positions generalizing slots with
  | nil => rfl
  | cons i positions ih => rw [List.foldl_cons, ih, List.length_set]

theorem getElem?_foldl_set (positions : List Nat) (slots : List Bool) {i : Nat}
    (hi : i < slots.length) : (positions.foldl (·.set · true) slots)[i]?.getD false =
      (positions.contains i || slots[i]?.getD false) := by
  induction positions generalizing slots with
  | nil => simp
  | cons k positions ih =>
    have hlength : i < (slots.set k true).length := by rwa [List.length_set]
    rw [List.foldl_cons, ih _ hlength, List.getElem?_set]
    by_cases hk : k = i
    · subst hk
      simp [hi]
    · simp [hk, Ne.symm hk]

theorem ofOnsets?_eq (positions : List Nat) (n : Nat) :
    ofOnsets? positions n = some (ofOnsets positions n) := by
  apply Checked.steps_of_getD
  · rw [length_foldl_set, List.length_replicate, ofOnsets, length_tabulate]
  · intro i hi
    rw [ofOnsets, length_tabulate] at hi
    rw [getElem?_foldl_set _ _ (by rwa [List.length_replicate]), ofOnsets, isOnset_tabulate]
    simp [hi]

theorem invert?_eq (p : Pattern) : p.invert? = some p.invert := Checked.steps_eq rfl

theorem reverse?_eq (p : Pattern) : p.reverse? = some p.reverse := Checked.steps_eq rfl

theorem rotate_of_emod_eq_zero {k : Int} (h : k % p.length = 0) : p.rotate k = p := by
  have hrounds := p.rotate_rounds (k / p.length)
  rwa [Int.ediv_mul_cancel (Int.dvd_of_emod_eq_zero h)] at hrounds

/-- Turned by less than its length, a pattern has its last steps in front. -/
theorem steps_rotate {k : Int} {shift : Nat} (h : k % p.length = shift) (hlt : shift < p.length) :
    (p.rotate k).steps =
      p.steps.drop (p.length - shift) ++ p.steps.take (p.length - shift) := by
  have hstep : ∀ i < p.length, (((i : Int) - k) % p.length).toNat =
      if i < shift then p.length - shift + i else i - shift := by
    intro i hi
    rw [Int.sub_emod, h, Int.emod_eq_of_lt (Int.natCast_nonneg i) (by omega)]
    split
    · next hshift =>
      rw [← Int.add_emod_right, Int.emod_eq_of_lt (by omega) (by omega)]
      omega
    · next hshift =>
      rw [Int.emod_eq_of_lt (by omega) (by omega)]
      omega
  have hsteps : p.steps.length = p.length := rfl
  apply List.ext_getElem
  · simp only [List.length_append, List.length_drop, List.length_take]
    change (p.rotate k).length = _
    rw [length_rotate]
    omega
  · intro i hi hi'
    have hi : i < p.length := by
      change i < (p.rotate k).length at hi
      rwa [length_rotate] at hi
    have hturned : (p.rotate k).steps[i] = p.isOnset (((i : Int) - k) % p.length).toNat := by
      simp [rotate, tabulate]
    rw [hturned, hstep i hi]
    split
    · next hshift =>
      have hin : p.length - shift + i < p.steps.length := by omega
      rw [List.getElem_append_left (by rw [List.length_drop]; omega), List.getElem_drop]
      simp [isOnset, hin]
    · next hshift =>
      have hin : i - shift < p.steps.length := by omega
      have hdrop : i - (p.steps.length - (p.length - shift)) = i - shift := by omega
      rw [List.getElem_append_right (by rw [List.length_drop]; omega), List.getElem_take]
      simp [isOnset, hin, hdrop]

theorem rotate?_eq (p : Pattern) (k : Int) : p.rotate? k = some (p.rotate k) := by
  have hpos := p.length_pos'
  have hle := p.length_le'
  have hnonneg := Int.emod_nonneg k (b := p.length) (by omega)
  have hlt := Int.emod_lt_of_pos k (b := p.length) (by omega)
  obtain ⟨shift, hshift⟩ := Int.eq_ofNat_of_zero_le hnonneg
  unfold rotate?
  rw [Checked.bind_eq (Checked.int_eq (by omega)),
    Checked.bind_eq (Checked.emod_eq (by omega)), hshift,
    Checked.bind_eq (Checked.count_eq (by omega))]
  split
  · next hzero =>
    rw [rotate_of_emod_eq_zero (by omega)]
    rfl
  · next hzero =>
    have hsplit : p.length - shift ≤ p.steps.length := Nat.sub_le _ _
    rw [Checked.bind_eq (Checked.sub_eq (by omega)), Checked.bind_eq (Checked.split_eq hsplit)]
    exact Checked.steps_eq (steps_rotate hshift (by omega))

theorem rotate_zero (p : Pattern) : p.rotate 0 = p := rotate_of_emod_eq_zero (Int.zero_emod _)

theorem alignToDownbeat?_eq (p : Pattern) : p.alignToDownbeat? = some p.alignToDownbeat := by
  unfold alignToDownbeat? alignToDownbeat
  cases hfirst : p.steps.findIdx? id with
  | none => rfl
  | some first =>
    have hlt : first < p.length := (List.findIdx?_eq_some_iff_getElem.1 hfirst).1
    have hle := p.length_le'
    dsimp only
    by_cases hzero : first = 0
    · rw [if_pos hzero, hzero]
      exact congrArg some (rotate_zero p).symm
    · rw [if_neg hzero, Checked.bind_eq (Checked.int_eq (by omega)),
        Checked.bind_eq (Checked.int_eq (by omega)), rotate?_eq]

theorem extend?_eq (p : Pattern) (n : Nat) : p.extend? n = some (p.extend n) := by
  have hslot : ∀ i ∈ List.range (clampSteps n), (do
      let i ← Checked.mod i p.length
      p.steps[i]?) = some (p.cyclic i) := by
    intro i _
    have hlt : i % p.length < p.steps.length := Nat.mod_lt i p.length_pos
    rw [Checked.bind_eq (Checked.mod_eq p.length_pos'), cyclic, isOnset,
      List.getElem?_eq_getElem hlt, Option.getD_some]
  unfold extend?
  rw [Checked.bind_eq (Checked.mapM_eq hslot)]
  exact Checked.steps_eq rfl

theorem append?_eq (p q : Pattern) : p.append? q = some (p.append q) := by
  have hp := p.length_le'
  have hq := q.length_le'
  unfold append? append
  have hword : p.length + q.length ≤ maxSteps * maxSteps := by
    unfold maxSteps at *
    omega
  rw [Checked.bind_eq (Checked.word_eq hword)]
  by_cases hn : p.length + q.length ≤ maxSteps
  · have hpos : 0 < (p.steps ++ q.steps).length :=
      List.length_append ▸ Nat.add_pos_left p.length_pos _
    have hle : (p.steps ++ q.steps).length ≤ maxSteps := List.length_append ▸ hn
    have hsteps : Checked.steps (p.steps ++ q.steps) = some ⟨_, hpos, hle⟩ := Checked.steps_eq rfl
    rw [if_neg (by omega), dif_pos hn, Checked.bind_eq hsteps]
    rfl
  · rw [if_pos (by omega), dif_neg hn]
    rfl

theorem combine?_eq (how : Merge) (p q : Pattern) :
    combine? how p q = some (combine how p q) := by
  have hgcd : 0 < p.length.gcd q.length := Nat.gcd_pos_of_pos_left _ p.length_pos'
  have hlcm : p.length * (q.length / p.length.gcd q.length) = p.length.lcm q.length := by
    rw [Nat.lcm_eq_mul_div, Nat.mul_div_assoc _ (Nat.gcd_dvd_right _ _)]
  have hword : p.length.lcm q.length ≤ maxSteps * maxSteps :=
    Nat.le_trans (Nat.lcm_le_mul p.length_pos' q.length_pos')
      (Nat.mul_le_mul p.length_le' q.length_le')
  unfold combine? combine
  rw [Checked.bind_eq (Checked.div_eq hgcd), hlcm, Checked.bind_eq (Checked.word_eq hword)]
  dsimp only
  by_cases hn : p.length.lcm q.length ≤ maxSteps
  · have hsteps : (tabulate (p.length.lcm q.length) fun i =>
        how.apply (p.cyclic i) (q.cyclic i)).steps =
        List.zipWith how.apply (p.extend (p.length.lcm q.length)).steps
          (q.extend (p.length.lcm q.length)).steps := by
      simp [extend, tabulate, List.zipWith_map, List.zipWith_self]
    rw [if_neg (by omega), if_pos hn, Checked.bind_eq (extend?_eq p _),
      Checked.bind_eq (extend?_eq q _), Checked.bind_eq (Checked.steps_eq hsteps)]
    rfl
  · rw [if_pos (by omega), if_neg hn]
    rfl

end Pattern

def nearestStep? (i source target : Nat) : Option Nat := do
  let product ← Checked.word (i * target)
  let nearest ← Checked.round product source
  Checked.mod nearest target

def project? (i source target : Nat) (clockwise : Bool) : Option Nat := do
  let turns ← if clockwise || i == 0 then some i else Checked.sub source i
  nearestStep? turns source target

def quantize? (p : Pattern) (n : Nat) (clockwise : Bool) :
    Option (Except QuantizeError Quantization) := do
  if n = 0 ∨ maxSteps < n then return .error (.targetOutOfRange n)
  if n = p.length then return .ok ⟨p, p, clockwise⟩
  let positions ← p.onsets.mapM fun i => project? i p.length n clockwise
  let r ← Pattern.ofOnsets? positions n
  return .ok ⟨p, r, clockwise⟩

theorem nearestStep?_eq {i source target : Nat} (hi : i ≤ maxSteps) (hsource : 0 < source)
    (hpos : 0 < target) (hle : target ≤ maxSteps) :
    nearestStep? i source target = some (nearestStep i source target) := by
  unfold nearestStep?
  rw [Checked.bind_eq (Checked.word_eq (Nat.mul_le_mul hi hle)),
    Checked.bind_eq (Checked.round_eq hsource), Checked.mod_eq hpos]
  rfl

theorem project?_eq {i target : Nat} (hi : i < p.length) (hpos : 0 < target)
    (hle : target ≤ maxSteps) (clockwise : Bool) :
    project? i p.length target clockwise = some (project i p.length target clockwise) := by
  have hlength := p.length_le'
  unfold project? project
  split
  · exact nearestStep?_eq (by omega) p.length_pos' hpos hle
  · rw [Checked.bind_eq (Checked.sub_eq (by omega))]
    exact nearestStep?_eq (by omega) p.length_pos' hpos hle

theorem quantize?_eq (p : Pattern) (n : Nat) (clockwise : Bool) :
    quantize? p n clockwise = some (quantize p n clockwise) := by
  unfold quantize? quantize
  by_cases hn : 0 < n ∧ n ≤ maxSteps
  · have hpositions : ∀ i ∈ p.onsets,
        project? i p.length n clockwise = some (project i p.length n clockwise) := by
      intro i hi
      have hlt : i < p.length := List.mem_range.1 (List.mem_filter.1 hi).1
      exact project?_eq hlt hn.1 hn.2 clockwise
    rw [if_neg (by omega), if_pos hn]
    by_cases hsame : n = p.length
    · rw [if_pos hsame, if_pos hsame]
      rfl
    · rw [if_neg hsame, if_neg hsame, Checked.bind_eq (Checked.mapM_eq hpositions),
        Checked.bind_eq (Pattern.ofOnsets?_eq _ _)]
      rfl
  · rw [if_pos (by omega), if_neg hn]
    rfl

end Rhythm
