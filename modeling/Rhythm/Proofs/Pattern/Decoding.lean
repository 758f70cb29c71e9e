import Mathlib.Data.Nat.Size
import Rhythm.Proofs.Pattern.Cyclic
import Rhythm.Proofs.Pattern.Numerals

/-! Digits are decoded to a pattern that has them for its own digits again. Groups of bits determine
the digits they are written as, and the number of a decimal numeral determines its digits but for
zeros in front. What is no digit is an error, the first of it before any other. -/
namespace Rhythm

variable {p : Pattern} {r : Radix} {c : Char} {n group : Nat} {ds : List Char}
  {values values' : List Nat}

/-- The digits of a radix, hexadecimal ones in either case. -/
def Radix.symbols : Radix → List Char
  | .hex => ['0', '1', '2', '3', '4', '5', '6', '7', '8', '9', 'a', 'b', 'c', 'd', 'e', 'f',
      'A', 'B', 'C', 'D', 'E', 'F']
  | .octal => ['0', '1', '2', '3', '4', '5', '6', '7']
  | .decimal => ['0', '1', '2', '3', '4', '5', '6', '7', '8', '9']

/-- Every digit has a value, for which its upper case is written. -/
theorem digit?_symbol (h : c ∈ r.symbols) : ∃ v, Text.digit? r.base c = some v ∧ v < r.base ∧
    Text.upperDigit v = c.toUpper := by
  have hall : (r.symbols.all fun c => (Text.digit? r.base c).any fun v =>
      v < r.base && Text.upperDigit v == c.toUpper) = true := by
    cases r <;> decide
  obtain ⟨v, hdigit, hv⟩ := (Option.any_eq_true _ _).1 (List.all_eq_true.1 hall c h)
  exact ⟨v, hdigit, by simpa using hv⟩

/-- Nothing else has a value. -/
theorem digit?_eq_none (h : c ∉ r.symbols) : Text.digit? r.base c = none := by
  have hascii : ∀ n < 128, Char.ofNat n ∉ r.symbols →
      Text.digit? r.base (Char.ofNat n) = none := by
    cases r <;> decide +kernel
  by_cases hn : c.toNat < 128
  · rw [← Char.ofNat_toNat c] at h ⊢
    exact hascii _ hn h
  · have hbase : r.base ≤ 16 := by cases r <;> decide
    have hdecimal : ¬ c.isDigit = true := by
      intro hc
      have hnine : c.toNat ≤ 57 := (Char.isDigit_iff_toNat.1 hc).2
      omega
    have hlower : ¬ ('a' ≤ c ∧ c ≤ 'f') := by
      rintro ⟨-, hc⟩
      have hf : c.toNat ≤ 102 := hc
      omega
    have hupper : ¬ ('A' ≤ c ∧ c ≤ 'F') := by
      rintro ⟨-, hc⟩
      have hf : c.toNat ≤ 70 := hc
      omega
    simp [Text.digit?, hdecimal, hlower, hupper, hbase]

theorem digitValues_symbols (h : ∀ c ∈ ds, c ∈ r.symbols) :
    ∃ values, digitValues r ds = .ok values ∧ (∀ v ∈ values, v < r.base) ∧
      values.map Text.upperDigit = ds.map Char.toUpper := by
  choose! value hdigit hlt hupper using fun c hc => digit?_symbol (h c hc)
  have hvalues := digitValues_map hdigit
  rw [List.map_id'] at hvalues
  refine ⟨ds.map value, hvalues, List.forall_mem_map.2 hlt, ?_⟩
  rw [List.map_map]
  exact List.map_congr_left hupper

/-- The error is that of the first character that is no digit. -/
theorem digitValues_invalid {valid rest : List Char} (hvalid : ∀ d ∈ valid, d ∈ r.symbols)
    (hc : c ∉ r.symbols) : digitValues r (valid ++ c :: rest) = .error (.invalidDigit c) := by
  induction valid with
  | nil =>
    rw [List.nil_append, digitValues, digit?_eq_none hc]
  | cons d valid ih =>
    obtain ⟨v, hdigit, -⟩ := digit?_symbol (hvalid d List.mem_cons_self)
    rw [List.cons_append, digitValues, hdigit]
    dsimp only
    rw [ih fun e he => hvalid e (List.mem_cons_of_mem _ he)]
    rfl

/-- The first character that is no digit of the radix. -/
def Radix.FirstInvalid (r : Radix) (ds : List Char) (c : Char) : Prop :=
  ∃ valid rest, ds = valid ++ c :: rest ∧ (∀ d ∈ valid, d ∈ r.symbols) ∧ c ∉ r.symbols

theorem symbols_or_firstInvalid (r : Radix) (ds : List Char) :
    (∀ c ∈ ds, c ∈ r.symbols) ∨ ∃ c, r.FirstInvalid ds c := by
  cases hfind : ds.find? fun c => decide (c ∉ r.symbols) with
  | none =>
    left
    intro c hc
    simpa using List.find?_eq_none.1 hfind c hc
  | some c =>
    right
    obtain ⟨hc, valid, rest, hds, hvalid⟩ := List.find?_eq_some_iff_append.1 hfind
    exact ⟨c, valid, rest, hds, by simpa using hvalid, by simpa using hc⟩

theorem bitLength_eq_size (n : Nat) : bitLength n = n.size := by
  apply eq_of_forall_ge_iff
  intro k
  rw [bitLength_le_iff, Nat.size_le]

theorem length_flatMap_lowBits (group : Nat) (values : List Nat) :
    (values.flatMap (lowBits group)).length = group * values.length := by
  induction values with
  | nil => rfl
  | cons v values ih =>
    rw [List.flatMap_cons, List.length_append, ih, List.length_cons, Nat.mul_succ, lowBits,
      List.length_map, List.length_range, Nat.add_comm]

theorem lowBits_inj {v w : Nat} (hv : v < 2 ^ group) (hw : w < 2 ^ group)
    (h : lowBits group v = lowBits group w) : v = w := by
  apply Nat.eq_of_testBit_eq
  intro i
  by_cases hi : i < group
  · have hbit := congrArg (fun bits => bits[i]?.getD false) h
    simpa [lowBits_getElem?, hi] using hbit
  · have hpow : 2 ^ group ≤ 2 ^ i := Nat.pow_le_pow_right (by decide) (Nat.le_of_not_lt hi)
    rw [Nat.testBit_lt_two_pow (Nat.lt_of_lt_of_le hv hpow),
      Nat.testBit_lt_two_pow (Nat.lt_of_lt_of_le hw hpow)]

/-- The bits of groups determine the values of the groups. -/
theorem flatMap_lowBits_inj (hpos : 0 < group) (hvalues : ∀ v ∈ values, v < 2 ^ group)
    (hvalues' : ∀ v ∈ values', v < 2 ^ group)
    (h : values.flatMap (lowBits group) = values'.flatMap (lowBits group)) : values = values' := by
  have hlength := congrArg List.length h
  rw [length_flatMap_lowBits, length_flatMap_lowBits] at hlength
  replace hlength := Nat.eq_of_mul_eq_mul_left hpos hlength
  induction values generalizing values' with
  | nil => exact (List.length_eq_zero_iff.1 hlength.symm).symm
  | cons v values ih =>
    obtain ⟨v', values', rfl⟩ := List.exists_cons_of_length_eq_add_one hlength.symm
    rw [List.flatMap_cons, List.flatMap_cons] at h
    obtain ⟨hhead, htail⟩ := List.append_inj h (by simp [lowBits])
    have hv := lowBits_inj (hvalues v List.mem_cons_self) (hvalues' v' List.mem_cons_self) hhead
    have hrest := ih (fun w hw => hvalues w (List.mem_cons_of_mem _ hw))
      (fun w hw => hvalues' w (List.mem_cons_of_mem _ hw)) htail (by simpa using hlength)
    rw [hv, hrest]

theorem Pattern.map_isOnset (p : Pattern) : (List.range p.length).map p.isOnset = p.steps := by
  have hsteps := congrArg Pattern.steps p.resize_length
  simpa only [Pattern.resize, Pattern.tabulate, Pattern.clampSteps_length] using hsteps

theorem decode_eq (r : Radix) (ds : List Char) (steps : Option Nat) : decode r ds steps =
    (digitBits r ds).map fun bits =>
      .tabulate (steps.getD (defaultLength r bits)) fun i => bits[i]?.getD false := by
  unfold decode
  cases digitBits r ds <;> rfl

theorem length_le_defaultLength (r : Radix) (bits : List Bool) :
    bits.length ≤ defaultLength r bits := by
  unfold defaultLength
  split <;> omega

/-- A length asked for cuts or fills up what is decoded without it, since that has all the bits that
a pattern can have. -/
theorem decode_some (r : Radix) (ds : List Char) (k : Nat) :
    decode r ds (some k) = (decode r ds none).map (·.resize k) := by
  rw [decode_eq, decode_eq]
  cases digitBits r ds with
  | error e => rfl
  | ok bits =>
    apply congrArg Except.ok
    apply Pattern.ext_isOnset
    · simp only [Pattern.resize, Pattern.length_tabulate, Option.getD_some]
    · intro i hi
      rw [Pattern.length_tabulate, Option.getD_some] at hi
      have hmax := clampSteps_le k
      have hcover := length_le_defaultLength r bits
      simp only [Pattern.resize, Pattern.isOnset_tabulate, Option.getD_some, Option.getD_none]
      by_cases hbit : i < bits.length
      · have hkept : i < clampSteps (defaultLength r bits) := by
          simp only [clampSteps]
          omega
        simp [hkept]
      · simp [List.getElem?_eq_none (Nat.le_of_not_lt hbit)]

/-- Digits of a grouped radix are the digits of the pattern they are decoded to. -/
theorem decode_grouped (hr : r.group? = some group) (hne : ds ≠ []) (h : ∀ c ∈ ds, c ∈ r.symbols)
    (hle : group * ds.length ≤ maxSteps) :
    ∃ p, decode r ds none = .ok p ∧ p.encode r = r.mark ++ ds.map Char.toUpper := by
  have hpos := Pattern.group_pos hr
  obtain ⟨values, hvalues, hall, hupper⟩ := digitValues_symbols h
  have hcount : values.length = ds.length := by
    simpa using congrArg List.length hupper
  have hbits := length_flatMap_lowBits group values
  rw [hcount] at hbits
  have hclamp : (values.flatMap (lowBits group)).length =
      clampSteps (values.flatMap (lowBits group)).length := by
    rw [hbits, clampSteps_of_le (Nat.mul_pos hpos (List.length_pos_iff.2 hne)) hle]
  have hdecode : decode r ds none = .ok (.tabulate (values.flatMap (lowBits group)).length
      fun i => (values.flatMap (lowBits group))[i]?.getD false) := by
    rw [decode_eq, digitBits_of_group hne hvalues hr]
    change Except.ok (Pattern.tabulate (defaultLength r _) _) = _
    unfold defaultLength
    rw [hr]
  refine ⟨_, hdecode, ?_⟩
  -- The groups of the pattern have the bits of the values, so they are these values.
  generalize hp : Pattern.tabulate (values.flatMap (lowBits group)).length _ = p
  have hsteps : p.steps = values.flatMap (lowBits group) :=
    hp ▸ Pattern.steps_tabulate_getD hclamp
  have hlength : p.length = group * ds.length := by rw [Pattern.length, hsteps, hbits]
  have hgroups : (p.length + group - 1) / group * group = p.length := by
    rw [hlength, Nat.add_sub_assoc hpos, Nat.mul_add_div hpos,
      Nat.div_eq_of_lt (Nat.sub_lt hpos Nat.one_pos), Nat.add_zero, Nat.mul_comm]
  have hsame : p.groupValues group = values := by
    apply flatMap_lowBits_inj hpos
    · intro v hv
      exact Pattern.groupValues_lt hv
    · intro v hv
      exact two_pow_group hr ▸ hall v hv
    · rw [Pattern.flatMap_groupValues, hgroups, Pattern.map_isOnset, hsteps]
  rw [Pattern.encode, Pattern.digits_of_group hr, hsame, hupper]

section Decimal

variable (hne : ds ≠ []) (h : ∀ c ∈ ds, c ∈ Radix.symbols .decimal)

include hne h

theorem decode_decimal_overflow : decode .decimal ds none = .error (.overflow ds) ↔
    2 ^ 128 ≤ Text.decimalValue ds := by
  obtain ⟨values, hvalues, -⟩ := digitValues_symbols h
  have hlength : bitLength (Text.decimalValue ds) ≤ maxSteps ↔
      Text.decimalValue ds < 2 ^ 128 := bitLength_le_iff
  rw [decode_eq, digitBits_of_decimal hne hvalues rfl]
  split
  · next hle =>
    have := hlength.1 hle
    constructor
    · intro herror
      cases herror
    · omega
  · next hgt =>
    constructor
    · intro _
      exact Nat.le_of_not_lt fun hlt => hgt (hlength.2 hlt)
    · intro _
      rfl

/-- A number that fits is decoded to its binary digits, and its decimal ones are written for
them. -/
theorem decode_decimal (hfits : Text.decimalValue ds < 2 ^ 128) :
    ∃ p, decode .decimal ds none = .ok p ∧ p.length = max (Text.decimalValue ds).size 8 ∧
      (∀ i, p.isOnset i = (Text.decimalValue ds).testBit i) ∧
      p.encode .decimal = Radix.mark .decimal ++ Nat.toDigits 10 (Text.decimalValue ds) := by
  obtain ⟨values, hvalues, -⟩ := digitValues_symbols h
  generalize hv : Text.decimalValue ds = v at hfits ⊢
  have hle : bitLength v ≤ maxSteps := bitLength_le_iff.2 hfits
  have hbits : (lowBits (bitLength v) v).length = bitLength v := by simp [lowBits]
  have hmax : maxSteps = 128 := rfl
  have hclamp : clampSteps (max (bitLength v) 8) = max (bitLength v) 8 :=
    clampSteps_of_le (by omega) (by omega)
  have hdecode : decode .decimal ds none =
      .ok (.tabulate (max (bitLength v) 8) fun i => (lowBits (bitLength v) v)[i]?.getD false) := by
    rw [decode_eq, digitBits_of_decimal hne hvalues rfl, hv, if_pos hle]
    change Except.ok (Pattern.tabulate (max (lowBits (bitLength v) v).length 8) _) = _
    rw [hbits]
  refine ⟨_, hdecode, ?_, ?_⟩
  · rw [Pattern.length_tabulate, hclamp, bitLength_eq_size]
  · generalize hp : Pattern.tabulate (max (bitLength v) 8) _ = p
    have honset : ∀ i, p.isOnset i = v.testBit i := by
      intro i
      rw [← hp, Pattern.isOnset_tabulate, hclamp, lowBits_bitLength]
      by_cases hi : i < max (bitLength v) 8
      · simp [hi]
      · have hzero := Nat.testBit_lt_two_pow (bitLength_le_iff.1 (show bitLength v ≤ i by omega))
        simp [hzero]
    have hvalue : ofLowBits p.steps = v := by
      apply Nat.eq_of_testBit_eq
      intro i
      rw [testBit_ofLowBits]
      exact honset i
    refine ⟨honset, ?_⟩
    rw [Pattern.encode, Pattern.digits, hvalue]
    rfl

end Decimal

theorem digitBits_firstInvalid (h : r.FirstInvalid ds c) :
    digitBits r ds = .error (.invalidDigit c) := by
  obtain ⟨valid, rest, rfl, hvalid, hc⟩ := h
  have hempty : (valid ++ c :: rest).isEmpty = false := by simp
  rw [digitBits, hempty, digitValues_invalid hvalid hc]
  rfl

theorem digitBits_symbols (h : ∀ c ∈ ds, c ∈ r.symbols) :
    digitBits r ds ≠ .error (.invalidDigit c) := by
  by_cases hne : ds = []
  · subst hne
    intro herror
    cases herror
  · obtain ⟨values, hvalues, -⟩ := digitValues_symbols h
    cases hr : r.group? with
    | some group =>
      rw [digitBits_of_group hne hvalues hr]
      intro herror
      cases herror
    | none =>
      rw [digitBits_of_decimal hne hvalues hr]
      split <;> (intro herror; cases herror)

/-- Whatever the length asked for, the first character that is no digit is the error. -/
theorem decode_invalidDigit (steps : Option Nat) :
    decode r ds steps = .error (.invalidDigit c) ↔ r.FirstInvalid ds c := by
  rw [decode_eq]
  constructor
  · intro h
    have hbits : digitBits r ds = .error (.invalidDigit c) := by
      cases hbits : digitBits r ds with
      | error e =>
        rw [hbits] at h
        cases h
        rfl
      | ok bits =>
        rw [hbits] at h
        cases h
    rcases symbols_or_firstInvalid r ds with hall | ⟨d, hd⟩
    · exact absurd hbits (digitBits_symbols hall)
    · cases (digitBits_firstInvalid hd).symm.trans hbits
      exact hd
  · intro h
    rw [digitBits_firstInvalid h]
    rfl

/-- Digits that fit are the digits of the pattern they are decoded to: in a grouped radix as they
were written, but for the case, and a decimal number in its shortest form. A length asked for cuts
or fills up this pattern, and the first character that is no digit is an error whatever the
length. -/
theorem decoding_exact (r : Radix) (ds : List Char) :
    (∀ group, r.group? = some group → ds ≠ [] → (∀ c ∈ ds, c ∈ r.symbols) →
      group * ds.length ≤ maxSteps →
      ∃ p, decode r ds none = .ok p ∧ p.encode r = r.mark ++ ds.map Char.toUpper) ∧
    (ds ≠ [] → (∀ c ∈ ds, c ∈ Radix.symbols .decimal) →
      (decode .decimal ds none = .error (.overflow ds) ↔ 2 ^ 128 ≤ Text.decimalValue ds) ∧
      (Text.decimalValue ds < 2 ^ 128 →
        ∃ p, decode .decimal ds none = .ok p ∧ p.length = max (Text.decimalValue ds).size 8 ∧
          (∀ i, p.isOnset i = (Text.decimalValue ds).testBit i) ∧
          p.encode .decimal = Radix.mark .decimal ++ Nat.toDigits 10 (Text.decimalValue ds))) ∧
    (∀ k, decode r ds (some k) = (decode r ds none).map (·.resize k)) ∧
    ∀ steps c, decode r ds steps = .error (.invalidDigit c) ↔ r.FirstInvalid ds c := by
  refine ⟨?_, ?_, ?_, ?_⟩
  · intro group hr hne hdigits hle
    exact decode_grouped hr hne hdigits hle
  · intro hne hdigits
    exact ⟨decode_decimal_overflow hne hdigits, decode_decimal hne hdigits⟩
  · intro k
    exact decode_some r ds k
  · intro steps c
    exact decode_invalidDigit steps

theorem decoding_exact_of_two :
    (∃ p, decode .hex ['f', 'E'] none = .ok p ∧ p.encode .hex = ['0', 'x', 'F', 'E']) ∧
    (∃ p, decode .decimal ['0', '7', '3'] none = .ok p ∧ p.length = 8 ∧
      p.encode .decimal = ['d', '7', '3']) ∧
    decode .octal ['7', '8', 'x'] none = .error (.invalidDigit '8') := by
  refine ⟨?_, ?_, ?_⟩
  · obtain ⟨p, hp, hwritten⟩ :=
      (decoding_exact .hex ['f', 'E']).1 4 rfl (by decide) (by simp [Radix.symbols]) (by decide)
    exact ⟨p, hp, hwritten.trans (by decide)⟩
  · obtain ⟨p, hp, hlength, -, hwritten⟩ :=
      ((decoding_exact .decimal ['0', '7', '3']).2.1 (by decide) (by simp [Radix.symbols])).2
        (by decide)
    exact ⟨p, hp, hlength.trans (by decide), hwritten.trans (by decide)⟩
  · apply ((decoding_exact .octal ['7', '8', 'x']).2.2.2 none '8').2
    exact ⟨['7'], ['x'], rfl, by simp [Radix.symbols], by decide⟩

end Rhythm
