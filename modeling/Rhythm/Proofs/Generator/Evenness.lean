import Mathlib.Tactic.Ring
import Rhythm.Generator.Euclidean
import Rhythm.Proofs.Pattern.Cyclic

/-! Euclidean patterns are maximally even: windows of one width, anywhere on the circle of steps, hold
numbers of pulses that differ by one at most. Pulses and rests are read as a walk, up by the number
of rests at a pulse and down by the number of pulses at a rest. A round of regrouping is a
substitution of groups for pulses and rests, and it takes a walk that keeps within as many places as
there are slots to another one. -/
namespace Rhythm

variable {slots : List Bool} {up down t a b : Nat}

/-- The pulses among `width` consecutive slots from `start` on, around the end as often as needed. -/
def pulsesFrom (slots : List Bool) (start width : Nat) : Nat :=
  (List.range width).countP fun k => slots[(start + k) % slots.length]?.getD false

/-- Any two windows of the same width have the same number of pulses, up to one. -/
def MaximallyEven (slots : List Bool) : Prop :=
  ∀ width i j, pulsesFrom slots i width ≤ pulsesFrom slots j width + 1

/-- A group for each pulse and another one for each rest. -/
def substitute (u v slots : List Bool) : List Bool := slots.flatMap fun s => if s then u else v

theorem substitute_append (u v x y : List Bool) :
    substitute u v (x ++ y) = substitute u v x ++ substitute u v y := List.flatMap_append

theorem substitute_replicate (u v x : List Bool) (n : Nat) :
    substitute u v (List.replicate n x).flatten =
      (List.replicate n (substitute u v x)).flatten := by
  induction n with
  | zero => rfl
  | succ n ih =>
    simp only [List.replicate_succ, List.flatten_cons, substitute_append, ih]

/-- Regrouping does not look into the groups. -/
theorem regroup_substitute (u v x y : List Bool) (a b : Nat) :
    regroup (substitute u v x) a (substitute u v y) b = substitute u v (regroup x a y b) := by
  fun_induction regroup x a y b with
  | case1 x a y b h hlt ih =>
    rw [regroup, dif_pos h, if_pos hlt, ← substitute_append, ih]
  | case2 x a y b h hle ih =>
    rw [regroup, dif_pos h, if_neg hle, ← substitute_append, ih]
  | case3 x a y b h =>
    rw [regroup, dif_neg h, substitute_append, substitute_replicate, substitute_replicate]

/-- Groups are never lost: what adds up over slots adds up over the groups. -/
theorem regroup_sum (f : List Bool → Nat) (hf : ∀ x y, f (x ++ y) = f x + f y)
    (u : List Bool) (a : Nat) (v : List Bool) (b : Nat) :
    f (regroup u a v b) = a * f u + b * f v := by
  have hnil : f [] = 0 := by
    have := hf [] []
    simp only [List.append_nil] at this
    omega
  have hreplicate : ∀ n x, f (List.replicate n x).flatten = n * f x := by
    intro n x
    induction n with
    | zero => simp [hnil]
    | succ n ih =>
      rw [List.replicate_succ, List.flatten_cons, hf, ih]
      ring
  fun_induction regroup u a v b with
  | case1 u a v b _ hlt ih =>
    obtain ⟨k, rfl⟩ := Nat.exists_eq_add_of_lt hlt
    rw [ih, hf, show b + k + 1 - b = k + 1 by omega]
    ring
  | case2 u a v b _ hle ih =>
    obtain ⟨k, rfl⟩ := Nat.exists_eq_add_of_le (Nat.le_of_not_lt hle)
    rw [ih, hf, show a + k - a = k by omega]
    ring
  | case3 u a v b => rw [hf, hreplicate, hreplicate]

theorem length_regroup (u : List Bool) (a : Nat) (v : List Bool) (b : Nat) :
    (regroup u a v b).length = a * u.length + b * v.length :=
  regroup_sum List.length (fun _ _ => List.length_append) u a v b

theorem count_regroup (u : List Bool) (a : Nat) (v : List Bool) (b : Nat) :
    (regroup u a v b).count true = a * u.count true + b * v.count true :=
  regroup_sum (List.count true) (fun _ _ => List.count_append) u a v b

theorem length_bjorklund (pulses steps : Nat) : (bjorklund pulses steps).length = steps := by
  unfold bjorklund
  split
  · exact List.length_replicate
  · split
    · exact List.length_replicate
    · rw [length_regroup]
      simp only [List.length_singleton]
      omega

theorem count_bjorklund (pulses steps : Nat) :
    (bjorklund pulses steps).count true = min pulses steps := by
  unfold bjorklund
  split
  · next h => simp [h]
  · next h =>
    split
    · next hp => simp [hp, List.count_replicate]
    · rw [count_regroup]
      simp
      omega

/-- The walk over slots, up at a pulse and down at a rest, stays below `up + down`. -/
def Stays (up down : Nat) : Nat → List Bool → Prop
  | t, [] => t < up + down
  | t, true :: slots => t < down ∧ Stays up down (t + up) slots
  | t, false :: slots => down ≤ t ∧ t < up + down ∧ Stays up down (t - down) slots

/-- Every pulse gets a rest of its own, and every rest becomes a pulse: the walk is mirrored. -/
theorem Stays.mirrored (h : Stays up down t slots) : Stays down (up + down) (up + down - 1 - t)
    (substitute [true, false] [true] slots) := by
  induction slots generalizing t with
  | nil =>
    simp only [Stays] at h
    simp only [substitute, List.flatMap_nil, Stays]
    omega
  | cons s slots ih =>
    cases s with
    | true =>
      obtain ⟨hlow, hrest⟩ := h
      have hnext : up + down - 1 - t + down - (up + down) = up + down - 1 - (t + up) := by omega
      refine ⟨by omega, by omega, by omega, ?_⟩
      rw [hnext]
      exact ih hrest
    | false =>
      obtain ⟨hlow, hhigh, hrest⟩ := h
      have hnext : up + down - 1 - t + down = up + down - 1 - (t - down) := by omega
      refine ⟨by omega, ?_⟩
      rw [hnext]
      exact ih hrest

/-- Every pulse gets a rest of its own, and rests stay: the walk only goes higher at its pulses. -/
theorem Stays.padded (h : Stays up down t slots) : Stays (up + down) down t
    (substitute [true, false] [false] slots) := by
  induction slots generalizing t with
  | nil =>
    simp only [Stays] at h
    simp only [substitute, List.flatMap_nil, Stays]
    omega
  | cons s slots ih =>
    cases s with
    | true =>
      obtain ⟨hlow, hrest⟩ := h
      have hnext : t + (up + down) - down = t + up := by omega
      refine ⟨hlow, by omega, by omega, ?_⟩
      rw [hnext]
      exact ih hrest
    | false =>
      obtain ⟨hlow, hhigh, hrest⟩ := h
      exact ⟨hlow, by omega, ih hrest⟩

theorem stays_replicate_append {n : Nat} (h : ∀ k < n, t + k * up < down)
    (hrest : Stays up down (t + n * up) slots) :
    Stays up down t (List.replicate n true ++ slots) := by
  induction n generalizing t with
  | zero => simpa using hrest
  | succ n ih =>
    have hzero := h 0 (by omega)
    refine ⟨by omega, ih ?_ ?_⟩
    · intro k hk
      have := h (k + 1) (by omega)
      rw [Nat.succ_mul] at this
      omega
    · rwa [show t + up + n * up = t + (n + 1) * up by ring]

/-- At the end of the regrouping there are groups and at most one remainder. -/
theorem stays_last (ha : 0 < a) (hb : b ≤ 1) :
    Stays b a 0 (List.replicate a true ++ (List.replicate b [false]).flatten) := by
  have hlast : b = 0 ∨ b = 1 := by omega
  rcases hlast with rfl | rfl
  · refine stays_replicate_append ?_ ?_
    · intro k _
      omega
    · simp only [List.replicate_zero, List.flatten_nil, Stays]
      omega
  · refine stays_replicate_append ?_ ?_
    · intro k hk
      omega
    · simp only [List.replicate_one, List.flatten_singleton, Stays]
      omega

/-- The walk over regrouped pulses and rests stays below their number, from some place on. -/
theorem exists_stays (ha : 0 < a) (b : Nat) : ∃ t, Stays b a t (regroup [true] a [false] b) := by
  -- Each round leaves fewer groups; the walk over them is the walk over the word of the next round.
  induction hn : a + b using Nat.strongRecOn generalizing a b with
  | ind n ih =>
    subst hn
    by_cases hround : 1 < b ∧ 0 < a
    · by_cases hlt : b < a
      · have hword : regroup [true] a [false] b =
            substitute [true, false] [true] (regroup [true] b [false] (a - b)) := by
          rw [regroup, dif_pos hround, if_pos hlt, ← regroup_substitute]
          rfl
        obtain ⟨t, ht⟩ := ih (b + (a - b)) (by omega) (a := b) (by omega) (a - b) rfl
        have hup := ht.mirrored
        rw [show a - b + b = a by omega] at hup
        exact ⟨_, hword ▸ hup⟩
      · have hword : regroup [true] a [false] b =
            substitute [true, false] [false] (regroup [true] a [false] (b - a)) := by
          rw [regroup, dif_pos hround, if_neg hlt, ← regroup_substitute]
          rfl
        obtain ⟨t, ht⟩ := ih (a + (b - a)) (by omega) (a := a) ha (b - a) rfl
        have hup := ht.padded
        rw [show b - a + a = b by omega] at hup
        exact ⟨_, hword ▸ hup⟩
    · refine ⟨0, ?_⟩
      rw [regroup, dif_neg hround, List.flatten_replicate_singleton]
      exact stays_last ha (by omega)

/-- The walk over the first slots counts the pulses among them. -/
theorem Stays.height (h : Stays up down t slots) {i : Nat} (hi : i ≤ slots.length) :
    down * i ≤ t + (up + down) * (slots.take i).count true ∧
      t + (up + down) * (slots.take i).count true < down * i + (up + down) := by
  induction slots generalizing t i with
  | nil =>
    obtain rfl : i = 0 := by simpa using hi
    simp only [Stays] at h
    simp only [List.take_nil, List.count_nil]
    omega
  | cons s slots ih =>
    cases i with
    | zero =>
      cases s <;> simp only [Stays] at h <;> simp only [List.take_zero, List.count_nil] <;> omega
    | succ i =>
      have hi' : i ≤ slots.length := by simpa using hi
      cases s with
      | true =>
        obtain ⟨hlow, hrest⟩ := h
        have := ih hrest hi'
        simp only [List.take_succ_cons, List.count_cons_self, Nat.mul_succ]
        omega
      | false =>
        obtain ⟨hlow, hhigh, hrest⟩ := h
        have := ih hrest hi'
        simp only [List.take_succ_cons, Nat.mul_succ]
        rw [List.count_cons_of_ne (by decide)]
        omega

theorem pulsesFrom_add (slots : List Bool) (i m n : Nat) :
    pulsesFrom slots i (m + n) = pulsesFrom slots i m + pulsesFrom slots (i + m) n := by
  unfold pulsesFrom
  rw [List.range_add, List.countP_append, List.countP_map]
  simp only [Function.comp_def, Nat.add_assoc]

theorem pulsesFrom_add_length (slots : List Bool) (i n : Nat) :
    pulsesFrom slots (slots.length + i) n = pulsesFrom slots i n := by
  unfold pulsesFrom
  simp only [Nat.add_assoc, Nat.add_mod_left]

theorem pulsesFrom_zero {i : Nat} (hi : i ≤ slots.length) :
    pulsesFrom slots 0 i = (slots.take i).count true := by
  induction i with
  | zero => rfl
  | succ i ih =>
    have hlt : i < slots.length := by omega
    rw [pulsesFrom_add, ih (by omega), List.take_add_one, List.count_append]
    cases hs : slots[i] <;> simp [pulsesFrom, Nat.mod_eq_of_lt hlt, hlt, hs]

/-- All along the endless repetition the walk keeps its bounds. -/
theorem Stays.height_cyclic (h : Stays up down t slots) (hcount : slots.count true = down)
    (hlength : slots.length = up + down) (i : Nat) :
    down * i ≤ t + (up + down) * pulsesFrom slots 0 i ∧
      t + (up + down) * pulsesFrom slots 0 i < down * i + (up + down) := by
  induction i using Nat.strongRecOn with
  | ind i ih =>
    by_cases hi : i ≤ slots.length
    · rw [pulsesFrom_zero hi]
      exact h.height hi
    · obtain ⟨j, rfl⟩ := Nat.exists_eq_add_of_le (Nat.le_of_not_le hi)
      have hturn : pulsesFrom slots 0 (slots.length + j) = down + pulsesFrom slots 0 j := by
        rw [pulsesFrom_add, pulsesFrom_zero (Nat.le_refl _), List.take_length, hcount,
          Nat.zero_add, ← pulsesFrom_add_length slots 0 j, Nat.add_zero]
      have hpos : 0 < slots.length := by
        have := ih 0 (by omega)
        omega
      have hbase := ih j (by omega)
      have hplaces : down * (slots.length + j) = down * (up + down) + down * j := by
        rw [hlength]
        ring
      have hheight : (up + down) * (down + pulsesFrom slots 0 j) =
          down * (up + down) + (up + down) * pulsesFrom slots 0 j := by ring
      rw [hturn, hplaces, hheight]
      omega

theorem maximallyEven_of_stays (h : Stays up down t slots) (hcount : slots.count true = down)
    (hlength : slots.length = up + down) : MaximallyEven slots := by
  intro width i j
  have hheight := h.height_cyclic hcount hlength
  have hwindow : ∀ k, pulsesFrom slots 0 (k + width) =
      pulsesFrom slots 0 k + pulsesFrom slots k width := by
    intro k
    rw [pulsesFrom_add, Nat.zero_add]
  obtain ⟨hi, -⟩ := hheight i
  obtain ⟨-, hiw⟩ := hheight (i + width)
  obtain ⟨-, hj⟩ := hheight j
  obtain ⟨hjw, -⟩ := hheight (j + width)
  rw [hwindow, Nat.mul_add, Nat.mul_add] at hiw hjw
  have hlt : (up + down) * pulsesFrom slots i width <
      (up + down) * (pulsesFrom slots j width + 2) := by
    rw [Nat.mul_add]
    omega
  have := Nat.lt_of_mul_lt_mul_left hlt
  omega

theorem maximallyEven_replicate (n : Nat) (s : Bool) : MaximallyEven (List.replicate n s) := by
  intro width i j
  have hslot : ∀ k, (List.replicate n s)[k % (List.replicate n s).length]?.getD false =
      (s && decide (0 < n)) := by
    intro k
    rw [List.length_replicate, List.getElem?_replicate]
    by_cases hn : 0 < n
    · simp [Nat.mod_lt k hn, hn]
    · have hzero : n = 0 := by omega
      simp [hzero]
  simp only [pulsesFrom, hslot]
  omega

theorem maximallyEven_bjorklund (pulses steps : Nat) : MaximallyEven (bjorklund pulses steps) := by
  have hcount := count_bjorklund pulses steps
  have hlength := length_bjorklund pulses steps
  by_cases hfull : steps ≤ pulses
  · rw [bjorklund, if_pos hfull]
    exact maximallyEven_replicate steps true
  · by_cases hnone : pulses = 0
    · rw [bjorklund, if_neg hfull, if_pos hnone]
      exact maximallyEven_replicate steps false
    · obtain ⟨t, ht⟩ := exists_stays (Nat.pos_of_ne_zero hnone) (steps - pulses)
      have hword : bjorklund pulses steps = regroup [true] pulses [false] (steps - pulses) := by
        rw [bjorklund, if_neg hfull, if_neg hnone]
      rw [← hword] at ht
      exact maximallyEven_of_stays ht (by omega) (by omega)

section Patterns

variable {p : Pattern}

theorem pulsesFrom_steps (p : Pattern) (start width : Nat) :
    pulsesFrom p.steps start width = (List.range width).countP fun k => p.cyclic (start + k) := rfl

/-- The windows of a rotated pattern are those of the pattern, elsewhere. -/
theorem maximallyEven_rotate (h : MaximallyEven p.steps) (k : Int) :
    MaximallyEven (p.rotate k).steps := by
  have hmoved : ∀ width i, pulsesFrom (p.rotate k).steps i width =
      pulsesFrom p.steps (((i : Int) - k) % p.length).toNat width := by
    intro width i
    rw [pulsesFrom_steps, pulsesFrom_steps]
    refine List.countP_congr ?_
    intro m _
    have hpos : (0 : Int) < p.length := by
      have := p.length_pos'
      omega
    have hstart := Int.toNat_of_nonneg (Int.emod_nonneg ((i : Int) - k) (Int.ne_of_gt hpos))
    have hplace : (((i + m : Nat) : Int) - k) % p.length =
        (((((i : Int) - k) % p.length).toNat + m) % p.length : Nat) := by
      rw [Int.natCast_emod, Int.natCast_add, Int.natCast_add, hstart, Int.emod_add_emod]
      congr 1
      ring
    rw [Pattern.cyclic_rotate, hplace, Int.toNat_natCast, Pattern.cyclic, Nat.mod_mod,
      ← Pattern.cyclic]
  intro width i j
  rw [hmoved, hmoved]
  exact h width _ _

theorem maximallyEven_alignToDownbeat (h : MaximallyEven p.steps) :
    MaximallyEven p.alignToDownbeat.steps := by
  unfold Pattern.alignToDownbeat
  split
  · exact maximallyEven_rotate h _
  · exact h

/-- The rests of a window are as even as its pulses. -/
theorem maximallyEven_invert (h : MaximallyEven p.steps) : MaximallyEven p.invert.steps := by
  have hrests : ∀ width i, pulsesFrom p.invert.steps i width + pulsesFrom p.steps i width =
      width := by
    intro width i
    have hsplit := List.length_eq_countP_add_countP (l := List.range width)
      (fun k => p.cyclic (i + k))
    simp only [pulsesFrom_steps, Pattern.cyclic_invert, List.length_range, Bool.not_eq_true,
      Bool.decide_eq_false] at hsplit ⊢
    omega
  intro width i j
  have := hrests width i
  have := hrests width j
  have := h width j i
  omega

end Patterns

theorem maximallyEven_euclidean (onsets steps : Nat) :
    MaximallyEven (euclidean onsets steps).steps := by
  have hlength := length_bjorklund (min onsets (clampSteps steps)) (clampSteps steps)
  have hclamp := Pattern.clampSteps_clampSteps steps
  apply maximallyEven_alignToDownbeat
  rw [Pattern.steps_tabulate_getD (hlength.trans hclamp.symm)]
  exact maximallyEven_bjorklund _ _

/-- The spread of pulses over slots is maximally even, whatever their numbers, and so are the
patterns made of it. -/
theorem spreads_maximallyEven : (∀ pulses steps, MaximallyEven (bjorklund pulses steps)) ∧
    (∀ onsets steps, MaximallyEven (euclidean onsets steps).steps) ∧
    ∀ onsets steps, MaximallyEven (dilcue onsets steps).steps := by
  refine ⟨maximallyEven_bjorklund, maximallyEven_euclidean, ?_⟩
  intro onsets steps
  exact maximallyEven_invert (maximallyEven_euclidean _ _)

example : pulsesFrom (bjorklund 5 13) 0 4 = 2 ∧ pulsesFrom (bjorklund 5 13) 1 4 = 1 := by
  decide +kernel

end Rhythm
