import Rhythm.Proofs.Notation.Rereading
import Rhythm.Proofs.Notation.Segments
import Rhythm.Proofs.Pattern.Numerals
import Rhythm.Notation.Eval

/-! The numerals of a pattern are notation for it: the lexer cuts them where their digits end, and
the length after the colon gives back what the digits leave open. -/
namespace Rhythm.Notation

open Text Phrase Rhythm.Notation.Expr

variable {p : Pattern} {r : Radix} {c : Char} {ds text : List Char} {ts : List Token}
  {ls : List Lexeme}

/-- The text is notation for the pattern, whatever the seed, and nothing is wrong with it. -/
def Denotes (text : List Char) (p : Pattern) : Prop :=
  ∃ parsed, parse text = .ok parsed ∧ parsed.warnings = [] ∧
    ∀ seed, parsed.expr.eval seed = .ok ⟨p, none, none⟩

/-- A text that is cut into the tokens of a literal. -/
theorem denotes_of_cuts (hbar : '|' ∉ text) (hcuts : Cuts text ts)
    (h : ∀ ls : List Lexeme, ls.map (·.token) = ts → Primary .anywhere ls [] (.literal p)) :
    Denotes text p := by
  obtain ⟨ls, hl, hts⟩ := hcuts.tokenize 0
  have hbody : Body .anywhere ls [] false (.literal p) :=
    .chain (.one (.term (.primary (h ls hts)))) (by intro l ls hls; cases hls)
  have hread : parseExpr text = .ok (.literal p) :=
    (parseExpr_eq_ok_iff text _).2 ⟨ls, hl, .bare hbody⟩
  refine ⟨⟨.literal p, []⟩, ?_, rfl, ?_⟩
  · rw [parse_single hbar, hread]
    rfl
  · intro seed
    rfl

/-- The digits a numeral of a radix may have. The lexer takes hexadecimal ones in an octal numeral
too. -/
def Radix.takes : Radix → Char → Bool
  | .hex | .octal => isHexDigit
  | .decimal => Char.isDigit

/-- A numeral is cut at the colon after its digits. -/
theorem cuts_code (hne : ds ≠ []) (hd : ∀ d ∈ ds, Radix.takes r d = true)
    (h : Cuts (Mark.colon.char :: text) ts) :
    Cuts (r.mark ++ (ds ++ Mark.colon.char :: text)) (.code r ds :: ts) := by
  have hrun : ∀ rest, Run (Radix.takes r) ds (Mark.colon.char :: (text ++ rest)) := by
    intro rest
    refine ⟨hd, ?_⟩
    rintro _ ⟨⟩
    cases r <;> decide
  rw [← List.append_assoc]
  refine .token (fun rest _ => ?_) h
  cases r with
  | hex => exact .hex (by decide) hne (hrun rest)
  | octal => exact .octal (by decide) hne (hrun rest)
  | decimal => exact .decimal (by decide) hne (hrun rest)

theorem takes_digits (p : Pattern) (r : Radix) : ∀ d ∈ p.digits r, Radix.takes r d = true := by
  have hgroups : ∀ group, r.group? = some group → r.base ≤ 16 →
      ∀ d ∈ p.digits r, isHexDigit d = true := by
    intro group hr hbase d hd
    rw [Pattern.digits_of_group hr] at hd
    obtain ⟨v, hv, rfl⟩ := List.mem_map.1 hd
    have hlt : v < 16 := Nat.lt_of_lt_of_le (p.groupValues_lt_base hr hv) hbase
    rw [isHexDigit, digit?_upperDigit hlt]
    rfl
  cases r with
  | hex => exact hgroups 4 rfl (by decide)
  | octal => exact hgroups 3 rfl (by decide)
  | decimal =>
    intro d hd
    exact Nat.isDigit_of_mem_toDigits (by decide) (by decide) hd

theorem isDigit_decimal {n : Nat} (h : c ∈ decimal n) : c.isDigit = true := by
  have hpos : ¬ (n : Int) < 0 := Int.not_lt.2 (Int.natCast_nonneg n)
  rw [decimal, if_neg hpos] at h
  exact Nat.isDigit_of_mem_toDigits (by decide) (by decide) h

theorem bar_not_mem_code (p : Pattern) (r : Radix) (n : Nat) :
    '|' ∉ r.mark ++ (p.digits r ++ ':' :: decimal n) := by
  intro h
  rcases List.mem_append.1 h with hmark | h
  · exact absurd hmark (by cases r <;> decide)
  rcases List.mem_append.1 h with hdigit | h
  · exact absurd (takes_digits p r _ hdigit) (by cases r <;> decide)
  rcases List.mem_cons.1 h with hcolon | hlength
  · exact absurd hcolon (by decide)
  · exact absurd (isDigit_decimal hlength) (by decide)

theorem denotes_code (p : Pattern) (r : Radix) :
    Denotes (p.encode r ++ ':' :: decimal p.length) p := by
  rw [Pattern.encode, List.append_assoc]
  refine denotes_of_cuts (bar_not_mem_code p r p.length)
    (cuts_code (p.digits_ne_nil r) (takes_digits p r) (cuts_mark .colon (cuts_decimal _))) ?_
  intro ls hls
  obtain ⟨l, _, rfl, hl, hls⟩ := List.map_eq_cons_iff.1 hls
  obtain ⟨c, us, rfl, hc, hus⟩ := List.map_eq_cons_iff.1 hls
  have hlength : p.length ≤ maxInteger := Nat.le_trans p.length_le' (by decide)
  refine .code hl (.given hc (count_of_tokens hlength hus)) ?_
  rw [Pattern.decode_digits, Option.getD_some, Pattern.resize_length]

theorem denotes_bits (p : Pattern) : Denotes p.bits p := by
  have hbar : '|' ∉ p.bits := by
    intro h
    rcases mem_bits h with h | h <;> exact absurd h (by decide)
  exact denotes_of_cuts hbar (cuts_bits p) fun ls hls => literal_again (by rw [tokens, hls]) []

/-- A pattern survives its numerals: they are decoded to it at its length, without a length to the
pattern with rests up to the end of its last digit, and with its length, as its bits do, they denote
it in the notation. -/
theorem numerals_roundtrip (p : Pattern) (r : Radix) :
    decode r ((p.encode r).drop r.mark.length) (some p.length) = .ok p ∧
      (∀ group, r.group? = some group →
        ∃ q, decode r ((p.encode r).drop r.mark.length) none = .ok q ∧ q.steps = p.steps ++
          List.replicate (min maxSteps (group * ((p.length + group - 1) / group)) - p.length)
            false) ∧
      Denotes (p.encode r ++ ':' :: decimal p.length) p ∧ Denotes p.bits p := by
  have hdigits : (p.encode r).drop r.mark.length = p.digits r := List.drop_left
  rw [hdigits]
  refine ⟨?_, ?_, denotes_code p r, denotes_bits p⟩
  · rw [Pattern.decode_digits, Option.getD_some, Pattern.resize_length]
  · intro group hr
    have hpos := Pattern.group_pos hr
    have hcovered : p.coveredLength r = group * ((p.length + group - 1) / group) := by
      rw [Pattern.coveredLength, hr, Nat.mul_comm]
    refine ⟨_, Pattern.decode_digits p r none, ?_⟩
    rw [Option.getD_none, hcovered]
    refine Pattern.steps_resize ?_
    rw [Nat.mul_comm]
    exact p.le_covered hpos

/-- Five steps have two hexadecimal digits, which stand for eight steps. -/
theorem numerals_roundtrip_of_five_steps :
    (Pattern.ofOnsets [0, 2, 4] 5).encode .hex = ['0', 'x', '5', '1'] ∧
      Radix.hex.group? = some 4 ∧ ∃ q, decode .hex ['5', '1'] none = .ok q ∧
        q.steps = [true, false, true, false, true, false, false, false] :=
  ⟨by decide, rfl, (numerals_roundtrip (.ofOnsets [0, 2, 4] 5) .hex).2.1 4 rfl⟩

end Rhythm.Notation
