import Mathlib.Data.List.Forall2
import Rhythm.Notation.Parser
import Rhythm.Notation.Printer
import Rhythm.Proofs.Notation.Spelling

/-! The text of an expression is cut into the tokens it was written with. -/
namespace Rhythm.Notation

open Text

/-- The tokens of a number. -/
def numberTokens (n : Int) : List Token :=
  if n < 0 then [.mark .minus, .digits (Nat.toDigits 10 n.natAbs)]
  else [.digits (Nat.toDigits 10 n.natAbs)]

/-- The sign between two patterns that merge. -/
def signMark : Merge → Mark
  | .add => .plus
  | .subtract => .minus

/-- The tokens of a tail. -/
def Tail.tokens : Tail → List Token
  | .quantize steps clockwise =>
    .mark .semicolon :: (if clockwise then [] else [.mark .minus]) ++ numberTokens steps
  | .rotate offset => .mark .at :: numberTokens offset
  | .evolve (.offset step) => .mark .plus :: numberTokens step
  | .evolve (.lengthen block) => .mark .star :: numberTokens block
  | .evolve (.transform target family) =>
    (family.map fun f => .word [f.letter]).toList ++ .mark .greater :: numberTokens target

namespace Expr

mutual

/-- The tokens of the text of an expression. -/
def tokens : Expr → List Token
  | .literal p => [.digits p.bits]
  | .generator family args _ =>
    .word [family.letter] :: .mark .leftParen ::
      [.mark .comma].intercalate (args.map numberTokens) ++ [.mark .rightParen]
  | .bell steps seed _ =>
    let seed := (seed.map fun s => .mark .comma :: numberTokens s.toNat).getD []
    .word ['R'] :: .mark .leftParen :: .word ['r'] :: .mark .comma :: numberTokens steps ++ seed ++
      [.mark .rightParen]
  | .accented accent body =>
    .mark .leftBrace :: accent.tokens ++ .mark .rightBrace :: body.tokens
  | .quantized body steps clockwise _ => body.tokens ++ (Tail.quantize steps clockwise).tokens
  | .progressive suffix body => body.tokens ++ (Tail.evolve suffix).tokens
  | .combination how left right _ =>
    left.tokens ++ .mark (signMark how) :: right.tokens
  | .chain parts _ => (tokensAll parts).flatten
  | .invert body => .mark .tilde :: body.tokens
  | .reverse body => .word ['r', 'e', 'v'] :: body.tokens
  | .rotate body offset => body.tokens ++ (Tail.rotate offset).tokens
  | .scenes parts => [.mark .pipe].intercalate (tokensAll parts)

def tokensAll : List Expr → List (List Token)
  | [] => []
  | e :: es => e.tokens :: tokensAll es

end

end Expr

/-- A text with which a run of digits comes to its end. With an `x` or an `o` a nought would mark a
radix. -/
def Stops (rest : List Char) : Prop :=
  ∀ c ∈ rest.head?, c.isDigit = false ∧ c.toLower ≠ 'x' ∧ c.toLower ≠ 'o'

/-- Wherever it stands, a text is cut into given tokens, and what follows is cut as it would be by
itself. -/
def Cuts (text : List Char) (ts : List Token) : Prop :=
  ∀ n rest, Stops rest → ∃ ls : List Lexeme, ls.map (·.token) = ts ∧
    tokenize n (text ++ rest) = (tokenize (n + text.length) rest).map (ls ++ ·)

variable {c : Char} {m : Mark} {cs ds text text' word rest : List Char} {ts ts' : List Token}

theorem tokensAll_eq_map (es : List Expr) : Expr.tokensAll es = es.map Expr.tokens := by
  induction es with
  | nil => rw [Expr.tokensAll, List.map_nil]
  | cons e es ih => rw [Expr.tokensAll, List.map_cons, ih]

theorem stops_nil : Stops [] := nofun

theorem stops_cons (h : c.isDigit = false ∧ c.toLower ≠ 'x' ∧ c.toLower ≠ 'o') :
    Stops (c :: cs) := by
  intro d hd
  cases hd
  exact h

theorem stops_mark (m : Mark) (cs : List Char) : Stops (m.char :: cs) :=
  stops_cons (by cases m <;> decide)

theorem stops_append (h : Stops text) (h' : Stops rest) : Stops (text ++ rest) := by
  cases text with
  | nil => exact h'
  | cons c cs => exact h

theorem cuts_nil : Cuts [] [] := by
  intro n rest _
  refine ⟨[], rfl, ?_⟩
  cases h : tokenize n rest <;> simp [h, Except.map]

/-- Texts that are cut one after the other are cut side by side. -/
theorem Cuts.append (h : Cuts text ts) (h' : Cuts text' ts') (hs : Stops text') :
    Cuts (text ++ text') (ts ++ ts') := by
  intro n rest hr
  obtain ⟨ls, hls, heq⟩ := h n (text' ++ rest) (stops_append hs hr)
  obtain ⟨ls', hls', heq'⟩ := h' (n + text.length) rest hr
  refine ⟨ls ++ ls', by rw [List.map_append, hls, hls'], ?_⟩
  rw [List.append_assoc, heq, heq', List.length_append, ← Nat.add_assoc]
  cases tokenize (n + text.length + text'.length) rest <;> simp [Except.map]

/-- One token and the text after it. -/
theorem Cuts.token {piece : List Char} {token : Token}
    (hs : ∀ rest, Stops rest → Spelled piece (text ++ rest) token) (h : Cuts text ts) :
    Cuts (piece ++ text) (token :: ts) := by
  intro n rest hr
  obtain ⟨ls, hls, heq⟩ := h (n + piece.length) rest hr
  refine ⟨⟨token, n, piece.length⟩ :: ls, by rw [List.map_cons, hls], ?_⟩
  rw [List.append_assoc, tokenize_of_spelled n (hs rest hr), heq, List.length_append, Nat.add_assoc]
  cases tokenize (n + (piece.length + text.length)) rest <;> rfl

theorem cuts_mark (m : Mark) (h : Cuts text ts) : Cuts (m.char :: text) (.mark m :: ts) :=
  .token (fun _ _ => .mark m) h

theorem cuts_blank (h : Cuts text ts) : Cuts (' ' :: text) ts := by
  intro n rest hr
  obtain ⟨ls, hls, heq⟩ := h (n + 1) rest hr
  refine ⟨ls, hls, ?_⟩
  rw [List.cons_append, tokenize, if_pos (by decide), heq, List.length_cons, Nat.add_assoc,
    Nat.add_comm 1]

theorem cuts_digits (hne : ds ≠ []) (h : ∀ d ∈ ds, d.isDigit = true) : Cuts ds [.digits ds] := by
  have hcuts : Cuts (ds ++ []) [.digits ds] := by
    refine .token (fun rest hr => .digits hne ⟨h, fun a ha => (hr a ha).1⟩ ?_) cuts_nil
    exact fun _ a ha => (hr a ha).2
  rwa [List.append_nil] at hcuts

/-- The letters of the words that are written. -/
def letters : List Char := ['B', 'D', 'E', 'P', 'R', 'W', 'e', 'r', 'v']

theorem isAlphabetic_of_letter (h : c ∈ letters) : isAlphabetic c = true := by
  have hall : (letters.all Char.isAlpha) = true := by decide
  rw [isAlphabetic, List.all_eq_true.1 hall c h, Bool.true_or]

/-- The end of a word. A colon would make morse of an `m`, and a digit a numeral of a `d`. -/
def Ends (c : Char) : Prop := isAlphabetic c = false ∧ c.isDigit = false ∧ c ≠ ':'

/-- A word comes to its end with the next character. -/
theorem cuts_word (word : List Char) (hne : word ≠ []) (hw : ∀ d ∈ word, d ∈ letters) (hc : Ends c)
    (h : Cuts (c :: cs) ts) : Cuts (word ++ c :: cs) (.word word :: ts) := by
  refine .token (fun rest _ => ?_) h
  refine .word hne ⟨fun d hd => isAlphabetic_of_letter (hw d hd), ?_⟩ ?_ ?_
  · rintro _ ⟨⟩
    exact hc.1
  · rintro _ - - _ ⟨⟩
    exact hc.2.1
  · rintro _ - - _ ⟨⟩
    exact hc.2.2

theorem ends_blank : Ends ' ' := by
  unfold Ends
  decide +kernel

theorem ends_mark (h : m ≠ .colon) : Ends m.char := by
  unfold Ends
  cases m <;> first | exact absurd rfl h | decide +kernel

theorem cuts_decimal (n : Int) : Cuts (decimal n) (numberTokens n) := by
  have hdigits : Cuts (Nat.toDigits 10 n.natAbs) [.digits (Nat.toDigits 10 n.natAbs)] :=
    cuts_digits Nat.toDigits_ne_nil fun _ h => Nat.isDigit_of_mem_toDigits (by decide) (by decide) h
  unfold decimal numberTokens
  split
  · exact cuts_mark .minus hdigits
  · exact hdigits

theorem mem_bits {p : Pattern} (h : c ∈ p.bits) : c = '0' ∨ c = '1' := by
  obtain ⟨b, -, rfl⟩ := List.mem_map.1 h
  cases b
  · exact .inl rfl
  · exact .inr rfl

theorem bits_ne_nil (p : Pattern) : p.bits ≠ [] := by
  have := p.length_pos
  rw [Pattern.bits, ne_eq, List.map_eq_nil_iff]
  exact List.ne_nil_of_length_pos this

theorem cuts_bits (p : Pattern) : Cuts p.bits [.digits p.bits] := by
  refine cuts_digits (bits_ne_nil p) fun d hd => ?_
  rcases mem_bits hd with rfl | rfl <;> rfl

/-- Texts with a separator between them. -/
theorem cuts_joined {sep : Char} {texts : List (List Char)} {tss : List (List Token)}
    (hs : ∀ text, Stops (sep :: text))
    (hsep : ∀ {text ts'}, Cuts text ts' → Cuts (sep :: text) (ts ++ ts'))
    (h : List.Forall₂ Cuts texts tss) : Cuts (joined sep texts) (ts.intercalate tss) := by
  induction h with
  | nil =>
    rw [List.intercalate_nil]
    exact cuts_nil
  | cons h hs' ih =>
    cases hs' with
    | nil =>
      rw [List.intercalate_singleton]
      exact h
    | cons h' hs' =>
      rw [List.intercalate_cons_cons, List.append_assoc]
      exact h.append (hsep ih) (hs _)

theorem intercalate_empty : (tss : List (List Token)) → [].intercalate tss = tss.flatten
  | [] => rfl
  | [ts] => by rw [List.intercalate_singleton, List.flatten_singleton]
  | ts :: ts' :: tss => by
    rw [List.intercalate_cons_cons, intercalate_empty (ts' :: tss), List.append_nil, ←
      List.flatten_cons]

/-- Blanks between texts leave no tokens. -/
theorem cuts_side_by_side {texts : List (List Char)} {tss : List (List Token)}
    (h : List.Forall₂ Cuts texts tss) : Cuts (joined ' ' texts) tss.flatten := by
  rw [← intercalate_empty]
  exact cuts_joined (fun _ => stops_cons (by decide)) cuts_blank h

theorem cuts_decimals (args : List Int) :
    List.Forall₂ Cuts (args.map decimal) (args.map numberTokens) := by
  rw [List.forall₂_map_left_iff, List.forall₂_map_right_iff, List.forall₂_same]
  exact fun n _ => cuts_decimal n

theorem cuts_letter {w : Char} (hw : w ∈ letters) (m : Mark) (hm : m ≠ .colon) (h : Cuts text ts) :
    Cuts (w :: m.char :: text) (.word [w] :: .mark m :: ts) :=
  cuts_word [w] (by simp) (by simpa using hw) (ends_mark hm) (cuts_mark m h)

theorem letter_mem (family : Family) : family.letter ∈ letters := by cases family <;> decide

theorem cuts_generator (family : Family) (args : List Int) (span : Span) :
    Cuts (Expr.generator family args span).text (Expr.generator family args span).tokens := by
  have hargs : Cuts (joined ',' (args.map decimal))
      ([.mark .comma].intercalate (args.map numberTokens)) :=
    cuts_joined (stops_mark .comma) (cuts_mark .comma) (cuts_decimals args)
  have hclose := hargs.append (cuts_mark .rightParen cuts_nil) (stops_mark .rightParen [])
  rw [Expr.text, Expr.tokens]
  exact cuts_letter (letter_mem family) .leftParen (by decide) hclose

theorem cuts_bell (steps : Nat) (seed : Option UInt64) (span : Span) :
    Cuts (Expr.bell steps seed span).text (Expr.bell steps seed span).tokens := by
  have hclose := cuts_mark .rightParen cuts_nil
  have hseed : Cuts ((seed.map fun s => ',' :: decimal s.toNat).getD [] ++ [')'])
      ((seed.map fun s => .mark .comma :: numberTokens s.toNat).getD [] ++
        [.mark .rightParen]) := by
    cases seed with
    | none => exact hclose
    | some s =>
      exact (cuts_mark .comma (cuts_decimal s.toNat)).append hclose (stops_mark .rightParen [])
  have hstops : Stops ((seed.map fun s => ',' :: decimal s.toNat).getD [] ++ [')']) := by
    cases seed with
    | none => exact stops_mark .rightParen []
    | some s => exact stops_mark .comma _
  have hargs := (cuts_decimal steps).append hseed hstops
  have hr := cuts_letter (w := 'r') (by decide) .comma (by decide) hargs
  have := cuts_letter (w := 'R') (by decide) .leftParen (by decide) hr
  rw [Expr.text, Expr.tokens]
  simpa [Mark.char] using this

theorem cuts_suffix (suffix : Suffix) : Cuts suffix.text (Tail.evolve suffix).tokens := by
  cases suffix with
  | offset n => exact cuts_mark .plus (cuts_decimal n)
  | lengthen block => exact cuts_mark .star (cuts_decimal block)
  | transform target family =>
    cases family with
    | none => exact cuts_mark .greater (cuts_decimal target)
    | some family =>
      exact cuts_letter (letter_mem family) .greater (by decide) (cuts_decimal target)

theorem stops_suffix (suffix : Suffix) : Stops suffix.text := by
  cases suffix with
  | offset n => exact stops_mark .plus _
  | lengthen block => exact stops_mark .star _
  | transform target family =>
    cases family with
    | none => exact stops_mark .greater _
    | some family => exact stops_cons (by cases family <;> decide)

theorem cuts_quantize (steps : Nat) (clockwise : Bool) :
    Cuts (';' :: (if clockwise then [] else ['-']) ++ decimal steps)
      (Tail.quantize steps clockwise).tokens := by
  cases clockwise with
  | true => exact cuts_mark .semicolon (cuts_decimal steps)
  | false => exact cuts_mark .semicolon (cuts_mark .minus (cuts_decimal steps))

theorem cuts_parts {parts : List Expr} (h : ∀ e ∈ parts, Cuts e.text e.tokens) :
    List.Forall₂ Cuts (Expr.texts parts) (Expr.tokensAll parts) := by
  induction parts with
  | nil => exact .nil
  | cons e es ih =>
    obtain ⟨he, hes⟩ := List.forall_mem_cons.1 h
    exact .cons he (ih hes)

/-- The text of any expression is cut into its tokens. -/
theorem cuts_text : (e : Expr) → Cuts e.text e.tokens
  | .literal p => cuts_bits p
  | .generator family args span => cuts_generator family args span
  | .bell steps seed span => cuts_bell steps seed span
  | .accented accent body => by
    have hbody := cuts_mark .rightBrace (cuts_text body)
    rw [Expr.text, Expr.tokens]
    exact cuts_mark .leftBrace ((cuts_text accent).append hbody (stops_mark .rightBrace _))
  | .quantized body steps clockwise span => by
    rw [Expr.text, Expr.tokens, List.append_assoc]
    exact (cuts_text body).append (cuts_quantize steps clockwise) (stops_mark .semicolon _)
  | .progressive suffix body => by
    rw [Expr.text, Expr.tokens]
    exact (cuts_text body).append (cuts_suffix suffix) (stops_suffix suffix)
  | .combination how left right span => by
    cases how with
    | add =>
      unfold Expr.text Expr.tokens
      exact (cuts_text left).append (cuts_mark .plus (cuts_text right)) (stops_mark .plus _)
    | subtract =>
      unfold Expr.text Expr.tokens
      exact (cuts_text left).append (cuts_mark .minus (cuts_text right)) (stops_mark .minus _)
  | .chain parts span => by
    rw [Expr.text, Expr.tokens]
    exact cuts_side_by_side (cuts_parts fun e _ => cuts_text e)
  | .invert body => by
    rw [Expr.text, Expr.tokens]
    exact cuts_mark .tilde (cuts_text body)
  | .reverse body => by
    rw [Expr.text, Expr.tokens]
    exact cuts_word ['r', 'e', 'v'] (by simp) (by simp [letters]) ends_blank
      (cuts_blank (cuts_text body))
  | .rotate body offset => by
    rw [Expr.text, Expr.tokens]
    exact (cuts_text body).append (cuts_mark .at (cuts_decimal offset)) (stops_mark .at _)
  | .scenes parts => by
    rw [Expr.text, Expr.tokens]
    exact cuts_joined (stops_mark .pipe) (cuts_mark .pipe) (cuts_parts fun e _ => cuts_text e)

/-- A text that is cut into tokens anywhere is cut into them where it stands alone. -/
theorem Cuts.tokenize (h : Cuts text ts) (n : Nat) :
    ∃ ls, Rhythm.Notation.tokenize n text = .ok ls ∧ ls.map (·.token) = ts := by
  obtain ⟨ls, hls, heq⟩ := h n [] stops_nil
  rw [List.append_nil, Rhythm.Notation.tokenize] at heq
  exact ⟨ls, by simpa [Except.map] using heq, hls⟩

theorem tokenize_text (n : Nat) (e : Expr) :
    ∃ ls, tokenize n e.text = .ok ls ∧ ls.map (·.token) = e.tokens := (cuts_text e).tokenize n

end Rhythm.Notation
