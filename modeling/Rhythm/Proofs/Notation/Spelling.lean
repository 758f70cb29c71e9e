import Mathlib.Data.List.TakeWhile
import Rhythm.Notation.Lexer
import Rhythm.Proofs.Text.LetterCase

/-! How tokens are written, and how a text is laid out in them. What a token takes is told by its
own characters and by the one right after them. -/
namespace Rhythm.Notation

open Text

variable {c : Char} {p : Char → Bool} {m : Mark} {token : Token} {n more : Nat}
  {cs ds piece rest rest' text : List Char} {l : Lexeme} {ls : List Lexeme}

/-- Characters of a class, and a text in front of which they come to their end. -/
structure Run (p : Char → Bool) (ds rest : List Char) : Prop where
  members : ∀ c ∈ ds, p c = true
  ends : ∀ c ∈ rest.head?, p c = false

/-- The ways to write a token in front of a text. -/
inductive Spelled : List Char → List Char → Token → Prop
  | mark {rest : List Char} (m : Mark) : Spelled [m.char] rest (.mark m)
  | hex {x : Char} {ds rest : List Char} (hx : x.toLower = 'x') (hne : ds ≠ [])
    (h : Run isHexDigit ds rest) : Spelled ('0' :: x :: ds) rest (.code .hex ds)
  | octal {o : Char} {ds rest : List Char} (ho : o.toLower = 'o') (hne : ds ≠ [])
    (h : Run isHexDigit ds rest) : Spelled ('0' :: o :: ds) rest (.code .octal ds)
  | bareOctal {o : Char} {ds rest : List Char} (ho : o.toLower = 'o') (hne : ds ≠ [])
    (h : Run Char.isDigit ds rest) : Spelled (o :: ds) rest (.code .octal ds)
  | decimal {d : Char} {ds rest : List Char} (hd : d.toLower = 'd') (hne : ds ≠ [])
    (h : Run Char.isDigit ds rest) : Spelled (d :: ds) rest (.code .decimal ds)
  | morse {m : Char} {ds rest : List Char} (hm : m.toLower = 'm') (hne : ds ≠ [])
    (h : Run isMorse ds rest) : Spelled (m :: ':' :: ds) rest (.morse ds)
  /-- A nought by itself would mark a radix with the letter after it. -/
  | digits {ds rest : List Char} (hne : ds ≠ []) (h : Run Char.isDigit ds rest)
    (hz : ds = ['0'] → ∀ c ∈ rest.head?, c.toLower ≠ 'x' ∧ c.toLower ≠ 'o') :
    Spelled ds rest (.digits ds)
  /-- So would a letter by itself, with a digit or a colon after it. -/
  | word {w rest : List Char} (hne : w ≠ []) (h : Run isAlphabetic w rest)
    (hd : ∀ l, w = [l] → l.toLower = 'd' ∨ l.toLower = 'o' →
      ∀ c ∈ rest.head?, c.isDigit = false)
    (hm : ∀ l, w = [l] → l.toLower = 'm' → ∀ c ∈ rest.head?, c ≠ ':') :
    Spelled w rest (.word w)

theorem char_of_ofChar? (h : Mark.ofChar? c = some m) : m.char = c := by
  unfold Mark.ofChar? at h
  split at h <;> cases h <;> rfl

/-- The code points of the blanks. -/
def blankPoints : List Nat :=
  [9, 10, 11, 12, 13, 0x20, 0x85, 0xA0, 0x1680, 0x2000, 0x2001, 0x2002, 0x2003, 0x2004, 0x2005,
    0x2006, 0x2007, 0x2008, 0x2009, 0x200A, 0x2028, 0x2029, 0x202F, 0x205F, 0x3000]

theorem mem_blankPoints (h : isBlank c = true) : c.toNat ∈ blankPoints := by
  simp only [isBlank, Bool.or_eq_true, Bool.and_eq_true, decide_eq_true_eq, beq_iff_eq] at h
  simp only [blankPoints, List.mem_cons, List.not_mem_nil, or_false]
  omega

/-- The characters between tokens: blanks, and the bar between scenes. -/
def Parts (c : Char) : Prop := isBlank c = true ∨ c = '|'

/-- A character with which no token goes on. -/
structure Foreign (c : Char) : Prop where
  digit : c.isDigit = false
  hexDigit : isHexDigit c = false
  morse : isMorse c = false
  colon : c ≠ ':'

theorem Foreign.letter (h : Foreign c) : isAlphabetic c = false := by
  have := h.morse
  simp only [isMorse, Bool.or_eq_false_iff] at this
  exact this.1.1

theorem Parts.foreign (h : Parts c) : Foreign c := by
  have hall : ∀ n ∈ '|'.toNat :: blankPoints, (Char.ofNat n).isDigit = false ∧
      isHexDigit (Char.ofNat n) = false ∧ isMorse (Char.ofNat n) = false ∧
      Char.ofNat n ≠ ':' := by decide +kernel
  have hmem : c.toNat ∈ '|'.toNat :: blankPoints := by
    rcases h with h | rfl
    · exact List.mem_cons_of_mem _ (mem_blankPoints h)
    · exact List.mem_cons_self
  have hfacts := hall c.toNat hmem
  rw [Char.ofNat_toNat] at hfacts
  exact ⟨hfacts.1, hfacts.2.1, hfacts.2.2.1, hfacts.2.2.2⟩

theorem digit_facts (h : c.isDigit = true) : Mark.ofChar? c = none ∧ isAlphabetic c = false := by
  have hall : ∀ n < 58, (Char.ofNat n).isDigit = true →
      Mark.ofChar? (Char.ofNat n) = none ∧ isAlphabetic (Char.ofNat n) = false := by
    decide +kernel
  have := hall c.toNat (Nat.lt_succ_of_le (Char.isDigit_iff_toNat.1 h).2)
  rw [Char.ofNat_toNat] at this
  exact this h

theorem isAlphabetic_mark (m : Mark) : isAlphabetic m.char = false := by
  cases m <;> decide +kernel

/-- What a letter is not. -/
structure Lettered (c : Char) : Prop where
  mark : Mark.ofChar? c = none
  nought : c ≠ '0'
  colon : c ≠ ':'
  digit : c.isDigit = false
  blank : isBlank c = false

theorem lettered (h : isAlphabetic c = true) : Lettered c := by
  have hother : ∀ {d : Char}, isAlphabetic d = false → c ≠ d := by
    rintro d hd rfl
    exact Bool.false_ne_true (hd.symm.trans h)
  refine ⟨?_, hother (digit_facts rfl).2, hother (isAlphabetic_mark .colon), ?_, ?_⟩
  · cases hm : Mark.ofChar? c with
    | none => rfl
    | some m => exact absurd (char_of_ofChar? hm).symm (hother (isAlphabetic_mark m))
  · rw [← Bool.not_eq_true]
    exact fun hd => hother (digit_facts hd).2 rfl
  · rw [← Bool.not_eq_true]
    exact fun hb => hother (Parts.foreign (.inl hb)).letter rfl

/-- The letters that mark a radix or morse. -/
theorem isAlphabetic_of_toLower {a : Char} (h : c.toLower = a) (ha : a ∈ ['d', 'o', 'm', 'x']) :
    isAlphabetic c = true := by
  rw [← caseBlind_isAlphabetic c, h]
  simp only [List.mem_cons, List.not_mem_nil, or_false] at ha
  rcases ha with rfl | rfl | rfl | rfl <;> rfl

/-- What is no letter marks nothing. -/
theorem toLower_ne {a : Char} (h : isAlphabetic c = false) (ha : a ∈ ['d', 'o', 'm', 'x']) :
    c.toLower ≠ a := by
  intro heq
  rw [isAlphabetic_of_toLower heq ha] at h
  cases h

theorem Run.takeWhile (h : Run p ds rest) : (ds ++ rest).takeWhile p = ds := by
  rw [List.takeWhile_append_of_pos h.members]
  cases rest with
  | nil => simp
  | cons c cs => simp [h.ends c rfl]

/-- What is taken of a class is a run. -/
theorem exists_run (p : Char → Bool) (cs : List Char) :
    ∃ ds rest, cs = ds ++ rest ∧ cs.takeWhile p = ds ∧ Run p ds rest := by
  refine ⟨cs.takeWhile p, cs.dropWhile p, List.takeWhile_append_dropWhile.symm, rfl, ?_, ?_⟩
  · intro c hc
    exact List.mem_takeWhile_imp hc
  · intro c hc
    have := List.head?_dropWhile_not p cs
    rw [hc] at this
    simpa using this

/-- The characters that may come after a token are those that came after it, and all that part
tokens. -/
theorem Run.before (h : Run p ds rest) (hp : ∀ c, Parts c → p c = false)
    (hr : ∀ c ∈ rest'.head?, c ∈ rest.head? ∨ Parts c) : Run p ds rest' := by
  refine ⟨h.members, ?_⟩
  intro c hc
  rcases hr c hc with hc | hc
  · exact h.ends c hc
  · exact hp c hc

theorem Spelled.before (h : Spelled piece rest token)
    (hr : ∀ c ∈ rest'.head?, c ∈ rest.head? ∨ Parts c) : Spelled piece rest' token := by
  cases h with
  | mark m => exact .mark m
  | hex hx hne h => exact .hex hx hne (h.before (fun c hc => hc.foreign.hexDigit) hr)
  | octal ho hne h => exact .octal ho hne (h.before (fun c hc => hc.foreign.hexDigit) hr)
  | bareOctal ho hne h => exact .bareOctal ho hne (h.before (fun c hc => hc.foreign.digit) hr)
  | decimal hd hne h => exact .decimal hd hne (h.before (fun c hc => hc.foreign.digit) hr)
  | morse hm hne h => exact .morse hm hne (h.before (fun c hc => hc.foreign.morse) hr)
  | digits hne h hz =>
    refine .digits hne (h.before (fun c hc => hc.foreign.digit) hr) ?_
    intro hds c hc
    rcases hr c hc with hc | hc
    · exact hz hds c hc
    · exact ⟨toLower_ne hc.foreign.letter (by simp), toLower_ne hc.foreign.letter (by simp)⟩
  | word hne h hd hm =>
    refine .word hne (h.before (fun c hc => hc.foreign.letter) hr) ?_ ?_
    · intro l hl hlower c hc
      rcases hr c hc with hc | hc
      · exact hd l hl hlower c hc
      · exact hc.foreign.digit
    · intro l hl hlower c hc
      rcases hr c hc with hc | hc
      · exact hm l hl hlower c hc
      · exact hc.foreign.colon

theorem scanMarked_eq_ok_iff {place : Nat} {fault : Fault} {make : List Char → Token} :
    scanMarked place fault make p cs = .ok (token, more) ↔
      ∃ ds rest, cs = ds ++ rest ∧ Run p ds rest ∧ ds ≠ [] ∧ token = make ds ∧
        more = ds.length + 1 := by
  obtain ⟨ds, rest, rfl, htake, hrun⟩ := exists_run p cs
  unfold scanMarked
  rw [htake]
  constructor
  · intro h
    dsimp only at h
    split at h
    · cases h
    · next hne =>
      cases h
      exact ⟨ds, rest, rfl, hrun, by simpa using hne, rfl, rfl⟩
  · rintro ⟨ds', rest', heq, hrun', hne, rfl, rfl⟩
    obtain rfl : ds = ds' := by rw [← htake, heq, hrun'.takeWhile]
    dsimp only
    rw [if_neg (by simpa using hne)]

theorem eq_cons_of_headD (h : cs.headD ' ' ≠ ' ') : cs = cs.headD ' ' :: cs.tail := by
  cases cs with
  | nil => exact absurd rfl h
  | cons c cs => rfl

theorem headD_of_mem (h : c ∈ cs.head?) : cs.headD ' ' = c := by
  rw [List.headD_eq_head?_getD, h, Option.getD_some]

/-- What a token that starts with `c` takes of the text after it, and that it is spelled so. -/
def CutOff (c : Char) (cs : List Char) (token : Token) (more : Nat) : Prop :=
  ∃ piece rest, cs = piece ++ rest ∧ more = piece.length ∧ Spelled (c :: piece) rest token

/-- A token that takes all characters of a class. -/
theorem cutOff_run (p : Char → Bool) (make : List Char → Token)
    (hs : ∀ {ds rest}, cs = ds ++ rest → Run p ds rest → Spelled (c :: ds) rest (make ds)) :
    CutOff c cs (make (cs.takeWhile p)) (cs.takeWhile p).length := by
  obtain ⟨ds, rest, hcs, htake, hrun⟩ := exists_run p cs
  rw [htake]
  exact ⟨ds, rest, hcs, rfl, hs hcs hrun⟩

/-- A token that starts with two characters, and what it takes after them. -/
theorem cutOff_scanMarked {place : Nat} {fault : Fault} {make : List Char → Token}
    (hs : ∀ {ds rest}, ds ≠ [] → Run p ds rest → Spelled (c :: cs.headD ' ' :: ds) rest (make ds))
    (hc : (cs.headD ' ').toLower ≠ ' ')
    (h : scanMarked place fault make p cs.tail = .ok (token, more)) : CutOff c cs token more := by
  obtain ⟨ds, rest, htail, hrun, hne, rfl, rfl⟩ := scanMarked_eq_ok_iff.1 h
  refine ⟨cs.headD ' ' :: ds, rest, ?_, rfl, hs hne hrun⟩
  rw [List.cons_append, ← htail]
  refine eq_cons_of_headD fun heq => ?_
  rw [heq] at hc
  exact hc rfl

theorem cutOff_mark (hm : Mark.ofChar? c = some m) : CutOff c cs (.mark m) 0 := by
  refine ⟨[], cs, rfl, rfl, ?_⟩
  rw [← char_of_ofChar? hm]
  exact .mark m

theorem cutOff_hex {fault : Fault} (hx : c = '0' ∧ (cs.headD ' ').toLower = 'x')
    (h : scanMarked n fault (.code .hex) isHexDigit cs.tail = .ok (token, more)) :
    CutOff c cs token more := by
  obtain ⟨rfl, hx⟩ := hx
  refine cutOff_scanMarked (.hex hx) ?_ h
  rw [hx]
  decide

theorem cutOff_octal {fault : Fault} (ho : c = '0' ∧ (cs.headD ' ').toLower = 'o')
    (h : scanMarked n fault (.code .octal) isHexDigit cs.tail = .ok (token, more)) :
    CutOff c cs token more := by
  obtain ⟨rfl, ho⟩ := ho
  refine cutOff_scanMarked (.octal ho) ?_ h
  rw [ho]
  decide

theorem cutOff_morse {fault : Fault} (hm : c.toLower = 'm' ∧ cs.headD ' ' = ':')
    (h : scanMarked n fault .morse isMorse cs.tail = .ok (token, more)) :
    CutOff c cs token more := by
  refine cutOff_scanMarked ?_ ?_ h
  · rw [hm.2]
    exact .morse hm.1
  · rw [hm.2]
    decide

/-- The digits after a letter that marks their radix. -/
theorem cutOff_numeral {radix : Radix} (hafter : (cs.headD ' ').isDigit = true)
    (hs : ∀ {ds rest}, ds ≠ [] → Run Char.isDigit ds rest →
      Spelled (c :: ds) rest (.code radix ds)) :
    CutOff c cs (.code radix (cs.takeWhile Char.isDigit)) (cs.takeWhile Char.isDigit).length := by
  refine cutOff_run Char.isDigit (.code radix) ?_
  intro ds rest hcs hrun
  refine hs ?_ hrun
  rintro rfl
  rw [List.nil_append] at hcs
  subst hcs
  cases cs with
  | nil => cases hafter
  | cons d cs =>
    have hno := hrun.ends d rfl
    rw [List.headD_cons, hno] at hafter
    cases hafter

theorem cutOff_digits (hx : ¬ (c = '0' ∧ (cs.headD ' ').toLower = 'x'))
    (ho : ¬ (c = '0' ∧ (cs.headD ' ').toLower = 'o')) (hc : c.isDigit = true) :
    CutOff c cs (.digits (c :: cs.takeWhile Char.isDigit)) (cs.takeWhile Char.isDigit).length := by
  refine cutOff_run Char.isDigit (fun ds => .digits (c :: ds)) ?_
  intro ds rest hcs hrun
  refine .digits (List.cons_ne_nil _ _) ⟨List.forall_mem_cons.2 ⟨hc, hrun.members⟩, hrun.ends⟩ ?_
  intro hnought a ha
  obtain ⟨rfl, rfl⟩ := List.cons.inj hnought
  rw [List.nil_append] at hcs
  rw [← hcs] at ha
  rw [headD_of_mem ha] at hx ho
  exact ⟨fun h => hx ⟨rfl, h⟩, fun h => ho ⟨rfl, h⟩⟩

theorem cutOff_word (hd : ¬ (c.toLower = 'd' ∧ (cs.headD ' ').isDigit = true))
    (ho : ¬ (c.toLower = 'o' ∧ (cs.headD ' ').isDigit = true))
    (hm : ¬ (c.toLower = 'm' ∧ cs.headD ' ' = ':')) (hc : isAlphabetic c = true) :
    CutOff c cs (.word (c :: cs.takeWhile isAlphabetic)) (cs.takeWhile isAlphabetic).length := by
  refine cutOff_run isAlphabetic (fun ws => .word (c :: ws)) ?_
  intro ws rest hcs hrun
  refine .word (List.cons_ne_nil _ _) ⟨List.forall_mem_cons.2 ⟨hc, hrun.members⟩, hrun.ends⟩ ?_ ?_
  · intro l hl hlower a ha
    obtain ⟨rfl, rfl⟩ := List.cons.inj hl
    rw [List.nil_append] at hcs
    rw [← hcs] at ha
    rw [headD_of_mem ha] at hd ho
    rw [← Bool.not_eq_true]
    intro hdigit
    rcases hlower with hlower | hlower
    · exact hd ⟨hlower, hdigit⟩
    · exact ho ⟨hlower, hdigit⟩
  · intro l hl hlower a ha hcolon
    obtain ⟨rfl, rfl⟩ := List.cons.inj hl
    rw [List.nil_append] at hcs
    rw [← hcs] at ha
    rw [headD_of_mem ha] at hm
    exact hm ⟨hlower, hcolon⟩

/-- What is taken is spelled as a token. -/
theorem spelled_of_scan (h : scan n c cs = .ok (token, more)) :
    ∃ piece rest, cs = piece ++ rest ∧ more = piece.length ∧ Spelled (c :: piece) rest token := by
  change CutOff c cs token more
  unfold scan at h
  split at h
  · next m hm =>
    cases h
    exact cutOff_mark hm
  dsimp only at h
  split at h
  · next hx => exact cutOff_hex hx h
  split at h
  · next ho => exact cutOff_octal ho h
  split at h
  · next hd =>
    cases h
    exact cutOff_numeral hd.2 (.decimal hd.1)
  split at h
  · next ho =>
    cases h
    exact cutOff_numeral ho.2 (.bareOctal ho.1)
  split at h
  · next hm => exact cutOff_morse hm h
  split at h
  · next hx ho _ _ _ hc =>
    cases h
    exact cutOff_digits hx ho hc
  split at h
  · next hd ho hm _ hc =>
    cases h
    exact cutOff_word hd ho hm hc
  · cases h

/-- What comes after a letter or a digit by itself is the first character of the text after it. -/
theorem headD_cases (piece rest : List Char) : (piece ++ rest).headD ' ' ∈ piece ∨
    piece = [] ∧ ((piece ++ rest).headD ' ' = ' ' ∨ (piece ++ rest).headD ' ' ∈ rest.head?) := by
  cases piece with
  | cons a as => exact .inl List.mem_cons_self
  | nil =>
    cases rest with
    | nil => exact .inr ⟨rfl, .inl rfl⟩
    | cons a as => exact .inr ⟨rfl, .inr rfl⟩

theorem isDigit_headD (hne : ds ≠ []) (h : Run Char.isDigit ds rest) :
    ((ds ++ rest).headD ' ').isDigit = true := by
  rcases headD_cases ds rest with hmem | ⟨hnil, -⟩
  · exact h.members _ hmem
  · exact absurd hnil hne

theorem scan_of_digits (n : Nat) (h : Run Char.isDigit (c :: piece) rest)
    (hz : c :: piece = ['0'] → ∀ c ∈ rest.head?, c.toLower ≠ 'x' ∧ c.toLower ≠ 'o') :
    scan n c (piece ++ rest) = .ok (.digits (c :: piece), piece.length) := by
  have hc : c.isDigit = true := h.members c List.mem_cons_self
  have hds : ∀ d ∈ piece, d.isDigit = true := fun d hd => h.members d (List.mem_cons_of_mem _ hd)
  obtain ⟨hm, hletter⟩ := digit_facts hc
  have hafter : c = '0' → ((piece ++ rest).headD ' ').toLower ≠ 'x' ∧
      ((piece ++ rest).headD ' ').toLower ≠ 'o' := by
    rintro rfl
    rcases headD_cases piece rest with hmem | ⟨rfl, heq | hmem⟩
    · have hno := (digit_facts (hds _ hmem)).2
      exact ⟨toLower_ne hno (by simp), toLower_ne hno (by simp)⟩
    · rw [heq]
      decide
    · exact hz rfl _ hmem
  have htake := (Run.mk hds h.ends).takeWhile
  unfold scan
  rw [hm]
  dsimp only
  rw [if_neg fun hx => (hafter hx.1).1 hx.2, if_neg fun hx => (hafter hx.1).2 hx.2,
    if_neg fun hx => toLower_ne hletter (by simp) hx.1,
    if_neg fun hx => toLower_ne hletter (by simp) hx.1,
    if_neg fun hx => toLower_ne hletter (by simp) hx.1, if_pos hc, htake]

theorem scan_of_word (n : Nat) (h : Run isAlphabetic (c :: piece) rest)
    (hd : ∀ l, c :: piece = [l] → l.toLower = 'd' ∨ l.toLower = 'o' →
      ∀ c ∈ rest.head?, c.isDigit = false)
    (hm : ∀ l, c :: piece = [l] → l.toLower = 'm' → ∀ c ∈ rest.head?, c ≠ ':') :
    scan n c (piece ++ rest) = .ok (.word (c :: piece), piece.length) := by
  have hc : isAlphabetic c = true := h.members c List.mem_cons_self
  have hws : ∀ d ∈ piece, isAlphabetic d = true := fun d hd =>
    h.members d (List.mem_cons_of_mem _ hd)
  obtain ⟨hmark, hnought, -, hdigit, -⟩ := lettered hc
  have hnodigit : c.toLower = 'd' ∨ c.toLower = 'o' →
      ¬ ((piece ++ rest).headD ' ').isDigit = true := by
    intro hlower
    rw [Bool.not_eq_true]
    rcases headD_cases piece rest with hmem | ⟨rfl, heq | hmem⟩
    · exact (lettered (hws _ hmem)).digit
    · rw [heq]
      rfl
    · exact hd c rfl hlower _ hmem
  have hnocolon : c.toLower = 'm' → (piece ++ rest).headD ' ' ≠ ':' := by
    intro hlower
    rcases headD_cases piece rest with hmem | ⟨rfl, heq | hmem⟩
    · exact (lettered (hws _ hmem)).colon
    · rw [heq]
      decide
    · exact hm c rfl hlower _ hmem
  have htake := (Run.mk hws h.ends).takeWhile
  unfold scan
  rw [hmark]
  dsimp only
  rw [if_neg fun hx => hnought hx.1, if_neg fun hx => hnought hx.1,
    if_neg fun hx => hnodigit (.inl hx.1) hx.2, if_neg fun hx => hnodigit (.inr hx.1) hx.2,
    if_neg fun hx => hnocolon hx.1 hx.2, if_neg (by simp [hdigit]), if_pos hc, htake]

/-- What is spelled as a token is taken. -/
theorem scan_of_spelled (n : Nat) (h : Spelled (c :: piece) rest token) :
    scan n c (piece ++ rest) = .ok (token, piece.length) := by
  generalize hp : c :: piece = whole at h
  cases h with
  | mark m =>
    cases hp
    rw [scan, m.ofChar?_char]
    rfl
  | hex hx hne h =>
    cases hp
    unfold scan
    dsimp only [Mark.ofChar?, List.cons_append, List.headD_cons, List.tail_cons]
    rw [if_pos ⟨rfl, hx⟩]
    exact scanMarked_eq_ok_iff.2 ⟨_, rest, rfl, h, hne, rfl, rfl⟩
  | octal ho hne h =>
    cases hp
    unfold scan
    dsimp only [Mark.ofChar?, List.cons_append, List.headD_cons, List.tail_cons]
    rw [if_neg (by simp [ho]), if_pos ⟨rfl, ho⟩]
    exact scanMarked_eq_ok_iff.2 ⟨_, rest, rfl, h, hne, rfl, rfl⟩
  | bareOctal ho hne h =>
    cases hp
    obtain ⟨hm, hnought, -, -, -⟩ := lettered (isAlphabetic_of_toLower ho (by simp))
    unfold scan
    rw [hm]
    dsimp only
    rw [if_neg fun hx => hnought hx.1, if_neg fun hx => hnought hx.1, if_neg (by simp [ho]),
      if_pos ⟨ho, isDigit_headD hne h⟩, h.takeWhile]
  | decimal hd hne h =>
    cases hp
    obtain ⟨hm, hnought, -, -, -⟩ := lettered (isAlphabetic_of_toLower hd (by simp))
    unfold scan
    rw [hm]
    dsimp only
    rw [if_neg fun hx => hnought hx.1, if_neg fun hx => hnought hx.1,
      if_pos ⟨hd, isDigit_headD hne h⟩, h.takeWhile]
  | morse hmorse hne h =>
    cases hp
    obtain ⟨hm, hnought, -, -, -⟩ := lettered (isAlphabetic_of_toLower hmorse (by simp))
    unfold scan
    rw [hm]
    dsimp only [List.cons_append, List.headD_cons, List.tail_cons]
    rw [if_neg fun hx => hnought hx.1, if_neg fun hx => hnought hx.1, if_neg (by simp [hmorse]),
      if_neg (by simp [hmorse]), if_pos ⟨hmorse, rfl⟩]
    exact scanMarked_eq_ok_iff.2 ⟨_, rest, rfl, h, hne, rfl, rfl⟩
  | digits hne h hz =>
    cases hp
    exact scan_of_digits n h hz
  | word hne h hd hm =>
    cases hp
    exact scan_of_word n h hd hm

theorem Spelled.ne_nil (h : Spelled piece rest token) : piece ≠ [] := by
  cases h <;> first | assumption | exact List.cons_ne_nil _ _

/-- A run of characters none of which parts tokens. -/
theorem Run.not_parts {p : Char → Bool} {ds : List Char} (h : Run p ds rest)
    (hp : ∀ c, Parts c → p c = false) : ∀ c ∈ ds, ¬ Parts c := by
  intro c hc hparts
  have := h.members c hc
  rw [hp c hparts] at this
  cases this

theorem isBlank_mark (m : Mark) : isBlank m.char = false := by cases m <;> rfl

theorem not_parts_mark {m : Mark} (h : m ≠ .pipe) : ¬ Parts m.char := by
  rintro (hb | hbar)
  · rw [isBlank_mark] at hb
    cases hb
  · cases m <;> first | exact h rfl | cases hbar

/-- Of all tokens only the bar has a character that parts tokens. -/
theorem Spelled.eq_bar (h : Spelled piece rest token) (hc : c ∈ piece) (hp : Parts c) :
    piece = ['|'] ∧ token = .mark .pipe := by
  have hletter : ∀ a ∈ ['d', 'o', 'm', 'x'], c.toLower ≠ a := fun a => toLower_ne hp.foreign.letter
  have hnought : c ≠ '0' := by
    rintro rfl
    cases hp.foreign.digit
  cases h with
  | mark m =>
    obtain rfl := List.mem_singleton.1 hc
    by_cases hm : m = .pipe
    · rw [hm]
      exact ⟨rfl, rfl⟩
    · exact absurd hp (not_parts_mark hm)
  | hex hx hne h =>
    rcases List.mem_cons.1 hc with rfl | hc
    · exact absurd rfl hnought
    rcases List.mem_cons.1 hc with rfl | hc
    · exact absurd hx (hletter _ (by simp))
    · exact absurd hp (h.not_parts (fun c hc => hc.foreign.hexDigit) c hc)
  | octal ho hne h =>
    rcases List.mem_cons.1 hc with rfl | hc
    · exact absurd rfl hnought
    rcases List.mem_cons.1 hc with rfl | hc
    · exact absurd ho (hletter _ (by simp))
    · exact absurd hp (h.not_parts (fun c hc => hc.foreign.hexDigit) c hc)
  | bareOctal ho hne h =>
    rcases List.mem_cons.1 hc with rfl | hc
    · exact absurd ho (hletter _ (by simp))
    · exact absurd hp (h.not_parts (fun c hc => hc.foreign.digit) c hc)
  | decimal hd hne h =>
    rcases List.mem_cons.1 hc with rfl | hc
    · exact absurd hd (hletter _ (by simp))
    · exact absurd hp (h.not_parts (fun c hc => hc.foreign.digit) c hc)
  | morse hm hne h =>
    rcases List.mem_cons.1 hc with rfl | hc
    · exact absurd hm (hletter _ (by simp))
    rcases List.mem_cons.1 hc with rfl | hc
    · exact absurd rfl hp.foreign.colon
    · exact absurd hp (h.not_parts (fun c hc => hc.foreign.morse) c hc)
  | digits hne h hz => exact absurd hp (h.not_parts (fun c hc => hc.foreign.digit) c hc)
  | word hne h hd hm =>
    exact absurd hp (h.not_parts (fun c hc => hc.foreign.letter) c hc)

theorem Spelled.not_blank (h : Spelled piece rest token) (hc : c ∈ piece) : isBlank c = false := by
  cases hb : isBlank c with
  | false => rfl
  | true =>
    rw [(h.eq_bar hc (.inl hb)).1, List.mem_singleton] at hc
    rw [hc] at hb
    cases hb

/-- A token without a bar in it is no bar. -/
theorem Spelled.bar_not_mem (h : Spelled piece rest token) (ht : token ≠ .mark .pipe) :
    '|' ∉ piece := fun hc => ht (h.eq_bar hc (.inr rfl)).2

theorem tokenize_of_spelled (n : Nat) (h : Spelled piece rest token) : tokenize n (piece ++ rest) =
    (tokenize (n + piece.length) rest).map (⟨token, n, piece.length⟩ :: ·) := by
  obtain ⟨c, cs, rfl⟩ := List.exists_cons_of_ne_nil h.ne_nil
  have hb : ¬ isBlank c = true := by
    rw [h.not_blank List.mem_cons_self]
    exact Bool.false_ne_true
  rw [List.cons_append, tokenize, if_neg hb, scan_of_spelled n h]
  dsimp only
  rw [List.drop_left, List.length_cons]

end Rhythm.Notation
