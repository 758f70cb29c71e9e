import Rhythm.Settings.Json

/-! Settings written as a table in JSON are read back as they were. -/
namespace Rhythm.Json

open Text

def quoted (cs : List Char) : List Char := '"' :: cs ++ ['"']

/-- A field of a table whose value is a text already, and what stands after it. -/
def field (name text rest : List Char) : List Char := quoted name ++ ':' :: (text ++ rest)

def ofSettings (s : Settings) : List Char :=
  '{' :: field "store_capacity".toList (Nat.toDigits 10 s.capacity)
    (',' :: field "eviction".toList (quoted s.eviction.name.toList)
      (',' :: field "seed".toList (Nat.toDigits 10 s.seed.toNat) ['}']))

/-- The data that settings are written as. -/
def fieldsOf (s : Settings) : List (List Char × Datum) :=
  [("store_capacity".toList, .number s.capacity),
    ("eviction".toList, .text s.eviction.name.toList),
    ("seed".toList, .number s.seed.toNat)]

/-- Whether a string holds a character as it is. -/
def isPlain (c : Char) : Bool := 0x20 ≤ c.toNat && c != '"' && c != '\\'

/-- In front of a comma or a closing brace a text is read as a value. -/
def Written (text : List Char) (d : Datum) : Prop :=
  ∀ fuel sep rest, sep ∈ [',', '}'] →
    value? (fuel + 1) (text ++ sep :: rest) = some (d, sep :: rest)

variable {cs rest : List Char} {fuel n : Nat} {c sep : Char}

theorem codePoints?_plain (h : cs.all isPlain = true) (hfuel : cs.length < fuel) :
    codePoints? fuel (cs ++ '"' :: rest) = some (cs.map Char.toNat, rest) := by
  induction cs generalizing fuel with
  | nil =>
    obtain ⟨fuel, rfl⟩ := Nat.exists_eq_succ_of_ne_zero (Nat.ne_of_gt hfuel)
    rfl
  | cons c cs ih =>
    simp only [List.all_cons, isPlain, Bool.and_eq_true, decide_eq_true_eq, bne_iff_ne] at h
    obtain ⟨⟨⟨hlow, hquote⟩, hslash⟩, hcs⟩ := h
    obtain ⟨fuel, rfl⟩ := Nat.exists_eq_succ_of_ne_zero (Nat.ne_of_gt (Nat.zero_lt_of_lt hfuel))
    have hrest := ih hcs (Nat.lt_of_succ_lt_succ hfuel)
    have hno : ¬ (c.toNat < 0x20 ∨ c = '\\') := by
      rintro (hlt | heq)
      · omega
      · exact hslash heq
    rw [List.cons_append, codePoints?]
    · simp [hno, hrest]
    · exact hquote
    · rintro d ds rfl
      exact absurd rfl hslash

/-- There is fuel for all characters of a string. -/
theorem codePoints?_quoted (h : cs.all isPlain = true) (rest : List Char) :
    codePoints? ((cs ++ '"' :: rest).length + 1) (cs ++ '"' :: rest) =
      some (cs.map Char.toNat, rest) := by
  refine codePoints?_plain h ?_
  rw [List.length_append]
  omega

theorem not_half (c : Char) : isHighHalf c.toNat = false ∧ isLowHalf c.toNat = false := by
  have hvalid := c.valid
  simp only [UInt32.isValidChar, Nat.isValidChar] at hvalid
  simp only [isHighHalf, isLowHalf, Bool.and_eq_false_iff, decide_eq_false_iff_not, Char.toNat]
  omega

theorem chars?_toNat (cs : List Char) : chars? (cs.map Char.toNat) = some cs := by
  induction cs with
  | nil => rfl
  | cons c cs ih =>
    obtain ⟨hhigh, hlow⟩ := not_half c
    cases cs with
    | nil => simp [chars?, hhigh, hlow]
    | cons d cs =>
      rw [List.map_cons] at ih
      rw [List.map_cons, List.map_cons, chars?, hhigh, hlow, ih]
      simp

theorem skipBlanks_cons (h : c ∉ [' ', '\n', '\t', '\r']) : skipBlanks (c :: cs) = c :: cs := by
  simp only [List.mem_cons, List.not_mem_nil, or_false, not_or] at h
  rw [skipBlanks, List.dropWhile_cons_of_neg (by simp [h])]

theorem value?_quote (fuel : Nat) (cs : List Char) : value? (fuel + 1) ('"' :: cs) =
    (codePoints? (cs.length + 1) cs).map fun r => (ofString r.1, r.2) := by
  rw [value?, skipBlanks_cons (by decide)]
  rfl

theorem written_quoted (h : cs.all isPlain = true) : Written (quoted cs) (.text cs) := by
  intro fuel sep rest _
  have htext : quoted cs ++ sep :: rest = '"' :: (cs ++ '"' :: sep :: rest) := by simp [quoted]
  rw [htext, value?_quote, codePoints?_quoted h, Option.map_some, ofString, chars?_toNat]

/-- Only nought starts with the digit of nought. -/
theorem head?_toDigits (hpos : 0 < n) : (Nat.toDigits 10 n).head? ≠ some '0' := by
  induction n using Nat.strongRecOn with
  | ind n ih =>
    by_cases hn : n < 10
    · rw [Nat.toDigits_of_lt_base hn]
      have hdigit : ∀ d : Fin 10, 0 < d.val → [Nat.digitChar d.val].head? ≠ some '0' := by decide
      exact hdigit ⟨n, hn⟩ hpos
    · rw [Nat.toDigits_of_base_le (by decide) (Nat.le_of_not_lt hn), List.head?_append]
      have hrest := ih (n / 10) (by omega) (by omega)
      cases hd : (Nat.toDigits 10 (n / 10)).head? with
      | none => exact absurd (List.head?_eq_none_iff.1 hd) Nat.toDigits_ne_nil
      | some d =>
        rw [hd] at hrest
        exact hrest

theorem digits?_append {ds : List Char} (hne : ds ≠ []) (hds : ∀ d ∈ ds, d.isDigit = true)
    (hsep : sep.isDigit = false) : digits? (ds ++ sep :: rest) = some (ds, sep :: rest) := by
  have htake : (ds ++ sep :: rest).takeWhile Char.isDigit = ds := by
    rw [List.takeWhile_append_of_pos hds, List.takeWhile_cons_of_neg (by simp [hsep]),
      List.append_nil]
  rw [digits?, htake]
  simp [hne]

/-- What ends a value is no part of it. -/
theorem separator_facts (h : sep ∈ [',', '}']) :
    sep.isDigit = false ∧ sep ∉ [' ', '\n', '\t', '\r'] := by
  simp only [List.mem_cons, List.not_mem_nil, or_false] at h
  rcases h with rfl | rfl <;> decide

theorem number?_toDigits (hn : n ≤ maxWord) (hsep : sep ∈ [',', '}']) :
    number? (Nat.toDigits 10 n ++ sep :: rest) = some (.number n, sep :: rest) := by
  have hds : ∀ d ∈ Nat.toDigits 10 n, d.isDigit = true := fun d hd =>
    Nat.isDigit_of_mem_toDigits (by decide) (by decide) hd
  have hvalue : decimalValue (Nat.toDigits 10 n) = n :=
    Nat.ofDigitChars_toDigits (by decide) (by decide)
  have hnought : ¬ ((Nat.toDigits 10 n).head? = some '0' ∧ 1 < (Nat.toDigits 10 n).length) := by
    rintro ⟨hhead, hlength⟩
    rcases Nat.eq_zero_or_pos n with rfl | hpos
    · exact absurd hlength (by decide)
    · exact head?_toDigits hpos hhead
  have hdigits : digits? (Nat.toDigits 10 n ++ sep :: rest) = some (_, sep :: rest) :=
    digits?_append Nat.toDigits_ne_nil hds (separator_facts hsep).1
  cases hcons : Nat.toDigits 10 n with
  | nil => exact absurd hcons Nat.toDigits_ne_nil
  | cons d ds =>
    have hminus : d ≠ '-' := by
      rintro rfl
      exact absurd (hds '-' (hcons ▸ List.mem_cons_self)) (by decide)
    rw [hcons] at hdigits hvalue hnought
    rw [List.cons_append] at hdigits ⊢
    have hfits := Nat.not_lt.2 hn
    simp only [List.mem_cons, List.not_mem_nil, or_false] at hsep
    rcases hsep with rfl | rfl <;>
      simp [-List.head?_cons, -List.length_cons, number?, hdigits, hminus, hnought, hvalue, hfits]

theorem value?_digit (fuel : Nat) (cs : List Char) (hc : c.isDigit = true) :
    value? (fuel + 1) (c :: cs) = number? (c :: cs) := by
  have hne : ∀ a, Char.isDigit a = false → c ≠ a := by
    rintro a ha rfl
    rw [ha] at hc
    cases hc
  have hblank : c ∉ [' ', '\n', '\t', '\r'] := by
    intro hmem
    simp only [List.mem_cons, List.not_mem_nil, or_false] at hmem
    rcases hmem with rfl | rfl | rfl | rfl <;> exact absurd hc (by decide)
  rw [value?, skipBlanks_cons hblank]
  -- no other kind of value starts with a digit
  split <;> first | rfl | exact absurd (List.cons.inj ‹_›).1 (hne _ (by decide))

theorem written_number (hn : n ≤ maxWord) : Written (Nat.toDigits 10 n) (.number n) := by
  intro fuel sep rest hsep
  rw [← number?_toDigits hn hsep]
  cases hcons : Nat.toDigits 10 n with
  | nil => exact absurd hcons Nat.toDigits_ne_nil
  | cons d ds =>
    have hd : d ∈ Nat.toDigits 10 n := hcons ▸ List.mem_cons_self
    exact value?_digit fuel _ (Nat.isDigit_of_mem_toDigits (by decide) (by decide) hd)

variable {name text : List Char} {d : Datum}

/-- A field is read up to the end of its value, and then the mark after it tells what follows. -/
theorem fields?_field (hname : name.all isPlain = true) (h : Written text d)
    (hsep : sep ∈ [',', '}']) :
    fields? (fuel + 2) (field name text (sep :: rest)) =
      if sep = ',' then
        (fields? (fuel + 1) rest).map fun r => ((name.map Char.toNat, d) :: r.1, r.2)
      else some ([(name.map Char.toNat, d)], rest) := by
  have htext : field name text (sep :: rest) =
      '"' :: (name ++ '"' :: ':' :: (text ++ sep :: rest)) := by simp [field, quoted]
  have hquote : skipBlanks ('"' :: (name ++ '"' :: ':' :: (text ++ sep :: rest))) = _ :=
    skipBlanks_cons (by decide)
  have hcolon : skipBlanks (':' :: (text ++ sep :: rest)) = _ := skipBlanks_cons (by decide)
  have hmark : skipBlanks (sep :: rest) = _ := skipBlanks_cons (separator_facts hsep).2
  rw [htext, fields?]
  simp only [hquote, codePoints?_quoted hname, hcolon, h fuel sep rest hsep, hmark]
  simp only [List.mem_cons, List.not_mem_nil, or_false] at hsep
  rcases hsep with rfl | rfl <;> rfl

theorem value?_table (fuel : Nat) (cs : List Char) : value? (fuel + 1) ('{' :: '"' :: cs) =
    (fields? fuel ('"' :: cs)).map fun r => (ofFields r.1, r.2) := by
  have hquote : skipBlanks ('"' :: cs) = _ := skipBlanks_cons (by decide)
  rw [value?, skipBlanks_cons (by decide)]
  simp only [hquote]
  rfl

theorem ofFields_toNat (fields : List (List Char × Datum)) :
    ofFields (fields.map fun f => (f.1.map Char.toNat, f.2)) = .table fields := by
  have hnames : (fields.map fun f => (f.1.map Char.toNat, f.2)).mapM
      (fun f => (chars? f.1).map fun name => (name, f.2)) = some fields := by
    induction fields with
    | nil => rfl
    | cons f fs ih => simp [chars?_toNat, ih]
  rw [ofFields, hnames]

theorem set?_capacity (s : Settings) (n : Nat) :
    Datum.set? s "store_capacity".toList (.number n) = some { s with capacity := n } := by
  rw [Datum.set?, if_pos rfl]
  rfl

theorem set?_eviction (s : Settings) (p : Policy) :
    Datum.set? s "eviction".toList (.text p.name.toList) = some { s with eviction := p } := by
  have hpolicy : (Datum.text p.name.toList).policy? = some p := by
    rw [Datum.policy?, String.ofList_toList]
    cases p <;> rfl
  rw [Datum.set?, if_neg (by decide), if_pos rfl, hpolicy]
  rfl

theorem set?_seed (s : Settings) (n : Nat) :
    Datum.set? s "seed".toList (.number n) = some { s with seed := .ofNat n } := by
  rw [Datum.set?, if_neg (by decide), if_neg (by decide), if_pos rfl]
  rfl

theorem settings?_fieldsOf (s : Settings) : (Datum.table (fieldsOf s)).settings? = some s := by
  have honce : (Datum.names.all fun name => (fieldsOf s).countP (·.1 = name) ≤ 1) = true := rfl
  rw [Datum.settings?, if_pos honce]
  simp only [fieldsOf, List.foldlM_cons, set?_capacity, set?_eviction, set?_seed, List.foldlM_nil,
    Option.bind_eq_bind, Option.bind_some, UInt64.ofNat_toNat]
  rfl

theorem plain_policy (p : Policy) : p.name.toList.all isPlain = true := by cases p <;> decide

theorem fields?_ofSettings (s : Settings) (h : s.capacity ≤ maxWord) (fuel : Nat) :
    fields? (fuel + 4) (ofSettings s).tail =
      some ((fieldsOf s).map fun f => (f.1.map Char.toNat, f.2), []) := by
  have hseed : s.seed.toNat ≤ maxWord := by
    have := s.seed.toNat_lt
    unfold maxWord
    omega
  rw [ofSettings, List.tail_cons,
    fields?_field (by decide) (written_number h) (by decide), if_pos rfl,
    fields?_field (by decide) (written_quoted (plain_policy _)) (by decide), if_pos rfl,
    fields?_field (by decide) (written_number hseed) (by decide), if_neg (by decide)]
  rfl

theorem read?_ofSettings (s : Settings) (h : s.capacity ≤ maxWord) :
    read? (ofSettings s) = some (.table (fieldsOf s)) := by
  have hfuel : ∃ fuel, 2 * (ofSettings s).length = fuel + 4 := by
    refine ⟨2 * (ofSettings s).length - 4, ?_⟩
    simp only [ofSettings, field, quoted, List.length_cons, List.length_append]
    omega
  obtain ⟨fuel, hfuel⟩ := hfuel
  have hvalue : value? (fuel + 4 + 1) (ofSettings s) = some (.table (fieldsOf s), []) := by
    refine (value?_table _ _).trans ?_
    refine (congrArg _ (fields?_ofSettings s h fuel)).trans ?_
    rw [Option.map_some, ofFields_toNat]
  rw [read?, hfuel, hvalue]
  rfl

/-- Settings that fit in their words are read back from the table they are written as. -/
theorem settings_reread (s : Settings) (h : s.capacity ≤ maxWord) :
    (read? (ofSettings s)).bind Datum.settings? = some s := by
  rw [read?_ofSettings s h, Option.bind_some, settings?_fieldsOf]

example : ofSettings {} =
    "\x7b\"store_capacity\":100,\"eviction\":\"lru\",\"seed\":388766\x7d".toList := by
  decide +kernel

end Rhythm.Json
