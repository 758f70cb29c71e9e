import Mathlib.Tactic.Ring
import Rhythm.Pattern.Codec

/-! A pattern is decoded from its own digits. Every digit of a grouped radix stands for the bits of
its group, the number of a decimal numeral for the bits of all steps, and either way bit `i` is step
`i`. What is asked for beyond the last step is filled up with rests. -/
namespace Rhythm

variable {p : Pattern} {r : Radix} {n group : Nat} {bs : List Bool} {ds : List Char}

@[simp] theorem testBit_ofLowBits (bs : List Bool) (i : Nat) :
    (ofLowBits bs).testBit i = bs[i]?.getD false := by
  induction bs generalizing i with
  | nil => simp [ofLowBits]
  | cons b bs ih =>
    cases i with
    | zero => cases b <;> simp [ofLowBits, Nat.testBit_zero]
    | succ i =>
      have hhalf : (b.toNat + 2 * ofLowBits bs) / 2 = ofLowBits bs := by
        cases b
        · simp
        · simp only [Bool.toNat_true]
          omega
      rw [ofLowBits, Nat.testBit_succ, hhalf, ih, List.getElem?_cons_succ]

theorem ofLowBits_lt (bs : List Bool) : ofLowBits bs < 2 ^ bs.length := by
  apply Nat.lt_pow_two_of_testBit
  intro i hi
  simp [List.getElem?_eq_none hi]

/-- A number has as many binary digits as powers of two up to it. -/
theorem bitLength_le_iff : bitLength n ≤ group ↔ n < 2 ^ group := by
  unfold bitLength
  split
  · next hn =>
    have := Nat.two_pow_pos group
    omega
  · next hn => rw [← Nat.log2_lt hn, Nat.succ_le_iff]

theorem lowBits_getElem? (n value i : Nat) :
    (lowBits n value)[i]?.getD false = (decide (i < n) && value.testBit i) := by
  by_cases hi : i < n <;> simp [lowBits, hi]

/-- Beyond its binary digits a number has no bits. -/
theorem lowBits_bitLength (value i : Nat) :
    (lowBits (bitLength value) value)[i]?.getD false = value.testBit i := by
  rw [lowBits_getElem?]
  by_cases hi : i < bitLength value
  · simp [hi]
  · have hzero := Nat.testBit_lt_two_pow (bitLength_le_iff.1 (Nat.le_of_not_lt hi))
    simp [hzero]

/-- Groups of low bits, one after the other, place by place. -/
theorem flatMap_lowBits (m : Nat) (f : Nat → Nat) :
    ((List.range m).map f).flatMap (lowBits group) =
      (List.range (m * group)).map fun i => (f (i / group)).testBit (i % group) := by
  induction m with
  | zero => simp
  | succ m ih =>
    have hlast : ∀ j, j < group → (m * group + j) / group = m ∧ (m * group + j) % group = j := by
      intro j hj
      have hpos : 0 < group := by omega
      constructor
      · rw [Nat.mul_comm, Nat.mul_add_div hpos, Nat.div_eq_of_lt hj, Nat.add_zero]
      · rw [Nat.mul_comm, Nat.mul_add_mod, Nat.mod_eq_of_lt hj]
    rw [List.range_succ, List.map_append, List.flatMap_append, ih, Nat.succ_mul, List.range_add,
      List.map_append]
    congr 1
    simp only [List.map_cons, List.map_nil, List.flatMap_singleton, lowBits, List.map_map]
    apply List.map_congr_left
    intro j hj
    obtain ⟨hdiv, hmod⟩ := hlast j (List.mem_range.1 hj)
    simp only [Function.comp_apply, hdiv, hmod]

theorem two_pow_group (hr : r.group? = some group) : 2 ^ group = r.base := by
  cases r <;> cases hr <;> rfl

theorem digit?_upperDigit {v : Nat} : v < 16 → Text.digit? 16 (Text.upperDigit v) = some v := by
  have hall : ∀ v < 16, Text.digit? 16 (Text.upperDigit v) = some v := by decide
  exact hall v

theorem digit?_base {base v : Nat} {c : Char} (hv : v < base)
    (h : Text.digit? 16 c = some v) : Text.digit? base c = some v := by
  unfold Text.digit? at h ⊢
  dsimp only at h ⊢
  obtain ⟨-, hval⟩ := Option.ite_none_right_eq_some.1 h
  rw [Option.some.inj hval, if_pos hv]

/-- If every character is a digit, then the digits have their values. -/
theorem digitValues_map {α : Type} {digit : α → Char} {value : α → Nat} {xs : List α}
    (h : ∀ x ∈ xs, Text.digit? r.base (digit x) = some (value x)) :
    digitValues r (xs.map digit) = .ok (xs.map value) := by
  induction xs with
  | nil => rfl
  | cons x xs ih =>
    have hrest := ih fun y hy => h y (List.mem_cons_of_mem _ hy)
    rw [List.map_cons, digitValues, h x List.mem_cons_self]
    dsimp only
    rw [hrest]
    rfl

/-- Digits written for values are read as these values. -/
theorem digitValues_upperDigit {values : List Nat} (h : ∀ v ∈ values, v < r.base) :
    digitValues r (values.map Text.upperDigit) = .ok values := by
  have hbase : r.base ≤ 16 := by cases r <;> decide
  have hdigits : ∀ v ∈ values, Text.digit? r.base (Text.upperDigit v) = some v := by
    intro v hv
    exact digit?_base (h v hv) (digit?_upperDigit (Nat.lt_of_lt_of_le (h v hv) hbase))
  rw [digitValues_map hdigits, List.map_id']

theorem digitValues_decimal (h : ∀ c ∈ ds, c.isDigit = true) :
    ∃ values, digitValues .decimal ds = .ok values := by
  have hdigits : ∀ c ∈ ds, Text.digit? 10 c = some (c.toNat - 48) := by
    intro c hc
    have hvalue : c.toNat - 48 < 10 := by
      have hnine : c.toNat ≤ 57 := (Char.isDigit_iff_toNat.1 (h c hc)).2
      omega
    simp [Text.digit?, h c hc, hvalue]
  have hvalues := digitValues_map (r := .decimal) hdigits
  rw [List.map_id'] at hvalues
  exact ⟨_, hvalues⟩

section Values

variable {values : List Nat} (hne : ds ≠ []) (hvalues : digitValues r ds = .ok values)

include hne hvalues

/-- Digits of a grouped radix stand for the bits of their values, one after the other. -/
theorem digitBits_of_group (hr : r.group? = some group) :
    digitBits r ds = .ok (values.flatMap (lowBits group)) := by
  have hempty : ds.isEmpty = false := List.isEmpty_eq_false_iff.2 hne
  rw [digitBits, hempty, hvalues, hr]
  rfl

/-- Decimal digits stand for the bits of their number, if these are not too many. -/
theorem digitBits_of_decimal (hr : r.group? = none) : digitBits r ds =
    if bitLength (Text.decimalValue ds) ≤ maxSteps then
      .ok (lowBits (bitLength (Text.decimalValue ds)) (Text.decimalValue ds))
    else .error (.overflow ds) := by
  have hempty : ds.isEmpty = false := List.isEmpty_eq_false_iff.2 hne
  rw [digitBits, hempty, hvalues, hr]
  rfl

end Values

namespace Pattern

/-- The values of the digits of a grouped radix. -/
def groupValues (p : Pattern) (group : Nat) : List Nat := (p.groups group).map ofLowBits

theorem group_testBit (p : Pattern) (k : Nat) {j : Nat} (hj : j < group) :
    (ofLowBits ((p.steps.drop (group * k)).take group)).testBit j = p.isOnset (group * k + j) := by
  rw [testBit_ofLowBits, List.getElem?_take_of_lt hj, List.getElem?_drop]
  rfl

/-- The bits of the digits are the steps, with rests after the last one. -/
theorem flatMap_groupValues (p : Pattern) (group : Nat) :
    (p.groupValues group).flatMap (lowBits group) =
      (List.range ((p.length + group - 1) / group * group)).map p.isOnset := by
  rw [groupValues, groups, List.map_map, flatMap_lowBits]
  apply List.map_congr_left
  intro i hi
  have hpos : 0 < group := by
    rcases Nat.eq_zero_or_pos group with hzero | hpos
    · simp [hzero] at hi
    · exact hpos
  rw [Function.comp_apply, group_testBit p _ (Nat.mod_lt i hpos), Nat.div_add_mod]

theorem groupValues_lt {v : Nat} (h : v ∈ p.groupValues group) : v < 2 ^ group := by
  obtain ⟨bits, hbits, rfl⟩ := List.mem_map.1 h
  obtain ⟨k, -, rfl⟩ := List.mem_map.1 hbits
  refine Nat.lt_of_lt_of_le (ofLowBits_lt _) (Nat.pow_le_pow_right (by omega) ?_)
  rw [List.length_take]
  omega

theorem groupValues_lt_base {v : Nat} (p : Pattern) (hr : r.group? = some group)
    (h : v ∈ p.groupValues group) : v < r.base := two_pow_group hr ▸ groupValues_lt h

/-- The number of steps that the digits of a pattern stand for. -/
def coveredLength (p : Pattern) (r : Radix) : Nat :=
  match r.group? with
  | some group => (p.length + group - 1) / group * group
  | none => max (bitLength (ofLowBits p.steps)) 8

theorem le_covered (p : Pattern) (hpos : 0 < group) :
    p.length ≤ (p.length + group - 1) / group * group := by
  have hdiv := Nat.div_add_mod (p.length + group - 1) group
  have hmod := Nat.mod_lt (p.length + group - 1) hpos
  rw [Nat.mul_comm] at hdiv
  omega

theorem group_pos (hr : r.group? = some group) : 0 < group := by
  cases r <;> cases hr <;> decide

theorem digits_of_group (h : r.group? = some group) :
    p.digits r = (p.groupValues group).map Text.upperDigit := by
  rw [digits, h, groupValues, List.map_map]
  rfl

theorem digits_ne_nil (p : Pattern) (r : Radix) : p.digits r ≠ [] := by
  cases hr : r.group? with
  | none =>
    rw [digits, hr]
    exact Nat.toDigits_ne_nil
  | some group =>
    have hpos := group_pos hr
    have hcount : 0 < (p.length + group - 1) / group := by
      have := p.length_pos'
      exact Nat.div_pos (by omega) hpos
    rw [digits_of_group hr, groupValues, groups, List.map_map, List.map_map, ne_eq,
      List.map_eq_nil_iff, List.range_eq_nil]
    omega

/-- The digits of a pattern stand for its steps. -/
theorem digitBits_grouped (p : Pattern) (hr : r.group? = some group) :
    digitBits r (p.digits r) = .ok ((List.range ((p.length + group - 1) / group * group)).map
      p.isOnset) := by
  have hvalues : digitValues r (p.digits r) = .ok (p.groupValues group) := by
    rw [digits_of_group hr]
    exact digitValues_upperDigit fun v hv => p.groupValues_lt_base hr hv
  rw [digitBits_of_group (p.digits_ne_nil r) hvalues hr, flatMap_groupValues]

theorem digitBits_decimal (p : Pattern) : digitBits .decimal (p.digits .decimal) =
    .ok (lowBits (bitLength (ofLowBits p.steps)) (ofLowBits p.steps)) := by
  have hdigits : p.digits .decimal = Nat.toDigits 10 (ofLowBits p.steps) := rfl
  have hdecimal : ∀ c ∈ p.digits .decimal, c.isDigit = true := by
    intro c hc
    exact Nat.isDigit_of_mem_toDigits (by decide) (by decide) (hdigits ▸ hc)
  obtain ⟨values, hvalues⟩ := digitValues_decimal hdecimal
  have hvalue : Text.decimalValue (p.digits .decimal) = ofLowBits p.steps :=
    Nat.ofDigitChars_toDigits (by decide) (by decide)
  have hbits : bitLength (ofLowBits p.steps) ≤ p.length :=
    bitLength_le_iff.2 (ofLowBits_lt p.steps)
  rw [digitBits_of_decimal (p.digits_ne_nil .decimal) hvalues rfl, hvalue]
  exact if_pos (Nat.le_trans hbits p.length_le')

/-- The digits of a pattern stand for its steps. -/
theorem digitBits_digits (p : Pattern) (r : Radix) : ∃ bits, digitBits r (p.digits r) = .ok bits ∧
    defaultLength r bits = p.coveredLength r ∧ ∀ i, bits[i]?.getD false = p.isOnset i := by
  cases hr : r.group? with
  | some group =>
    have hpos := group_pos hr
    refine ⟨_, p.digitBits_grouped hr, ?_, ?_⟩
    · rw [defaultLength, coveredLength, hr]
      simp
    · intro i
      by_cases hi : i < (p.length + group - 1) / group * group
      · simp [hi]
      · have := p.le_covered hpos
        simp [hi, isOnset_of_length_le (p := p) (i := i) (by omega)]
  | none =>
    obtain rfl : r = .decimal := by
      cases r with
      | decimal => rfl
      | hex | octal => cases hr
    refine ⟨_, p.digitBits_decimal, ?_, ?_⟩
    · simp [defaultLength, coveredLength, Radix.group?, lowBits]
    · intro i
      rw [lowBits_bitLength, testBit_ofLowBits]
      rfl

/-- Decoding its own digits gives the pattern back, at the length asked for. -/
theorem decode_digits (p : Pattern) (r : Radix) (steps : Option Nat) :
    decode r (p.digits r) steps = .ok (p.resize (steps.getD (p.coveredLength r))) := by
  obtain ⟨bits, hbits, hlength, honsets⟩ := p.digitBits_digits r
  rw [decode, hbits]
  change Except.ok (tabulate (steps.getD (defaultLength r bits)) _) = _
  rw [hlength, resize]
  simp only [honsets]

theorem resize_length (p : Pattern) : p.resize p.length = p := by
  apply ext_isOnset
  · rw [resize, length_tabulate, clampSteps_length]
  · intro i hi
    rw [resize, length_tabulate, clampSteps_length] at hi
    simp [resize, hi]

/-- A longer pattern has rests after the last step. -/
theorem steps_resize (h : p.length ≤ n) : (p.resize n).steps =
    p.steps ++ List.replicate (min maxSteps n - p.length) false := by
  have hpos := p.length_pos'
  have hle := p.length_le'
  have hclamp : clampSteps n = min maxSteps n := by
    simp only [clampSteps]
    omega
  apply List.ext_getElem
  · simp only [resize, tabulate, hclamp, List.length_map, List.length_range, List.length_append,
      List.length_replicate]
    change min maxSteps n = p.length + _
    omega
  · intro i hi hi'
    by_cases hlt : i < p.steps.length
    · simp [resize, tabulate, isOnset, hlt]
    · simp [resize, tabulate, isOnset, hlt, List.getElem_append]

end Pattern

end Rhythm
