import Rhythm.Generator.Morse
import Rhythm.Generator.Preset
import Rhythm.Notation.Fault
import Rhythm.Proofs.Pattern.Decoding
import Rhythm.Proofs.Text.LetterCase

/-! What words, numerals and morse text stand for in either case of their letters. -/
namespace Rhythm.Notation

open Text

variable {a b : List Char} {r : Radix}

theorem ofName?_eq (h : SameLetters a b) : Family.ofName? a = Family.ofName? b := by
  have hletter : CaseBlind Family.ofLetter? := by
    intro c
    rw [Family.ofLetter?, caseBlind_toUpper c, Family.ofLetter?]
  match a, b, h.length_eq with
  | [], [], _ => rfl
  | [c], [d], _ => exact hletter.eq (List.cons.inj h).1
  | _ :: _ :: _, _ :: _ :: _, _ => rfl

theorem preset?_eq (h : SameLetters a b) : preset? a = preset? b := by
  unfold preset?
  simp only [h.sameWord_eq]

theorem morse_eq (h : SameLetters a b) : morse a = morse b := by
  have hletter : CaseBlind fun c : Char =>
      if c = '.' ∨ c = '-' then [c] else morseLetter (plainLower c) := by
    apply caseBlind_of_capitals
    decide
  have hcode : morseCode a = morseCode b := h.flatMap_eq hletter
  rw [morse, morse, hcode]

/-- What is told of an error, apart from the digits it quotes. -/
def patternKind (e : PatternError) : FaultKind := (Fault.pattern e).kind

theorem mapError_map {ε ε' α β : Type} (x : Except ε α) (k : ε → ε') (f : α → β) :
    (x.map f).mapError k = (x.mapError k).map f := by
  cases x <;> rfl

theorem digitValues_kind (h : SameLetters a b) :
    (digitValues r a).mapError patternKind = (digitValues r b).mapError patternKind := by
  induction a generalizing b with
  | nil => rw [h.eq_nil]
  | cons c cs ih =>
    obtain ⟨d, ds, rfl, hd, hs⟩ := h.exists_cons
    rw [digitValues, digitValues, (caseBlind_digit? r.base).eq hd]
    cases digit? r.base d with
    | none => rfl
    | some v =>
      dsimp only
      rw [mapError_map, mapError_map, ih hs]

/-- Decimal digits that have values have no case. -/
theorem toLower_of_decimal {values : List Nat} (h : digitValues .decimal a = .ok values) :
    a.map Char.toLower = a := by
  have hdigit : (Radix.symbols .decimal).all Char.isDigit = true := by decide
  rcases symbols_or_firstInvalid .decimal a with hall | ⟨c, valid, rest, rfl, hvalid, hc⟩
  · exact map_toLower_of_digits fun c hc => List.all_eq_true.1 hdigit c (hall c hc)
  · rw [digitValues_invalid hvalid hc] at h
    cases h

theorem digitValues_eq_ok {values : List Nat} (h : SameLetters a b)
    (ha : digitValues r a = .ok values) : digitValues r b = .ok values := by
  have hkind := digitValues_kind (r := r) h
  rw [ha] at hkind
  cases hb : digitValues r b with
  | ok values' =>
    rw [hb] at hkind
    cases hkind
    rfl
  | error e =>
    rw [hb] at hkind
    cases hkind

theorem digitBits_kind (h : SameLetters a b) :
    (digitBits r a).mapError patternKind = (digitBits r b).mapError patternKind := by
  rcases symbols_or_firstInvalid r a with ha | ⟨c, hc⟩
  · obtain ⟨values, hvalues, -⟩ := digitValues_symbols ha
    have hvalues' := digitValues_eq_ok h hvalues
    by_cases hne : a = []
    · rw [hne] at h ⊢
      rw [h.eq_nil]
    have hne' : b ≠ [] := by
      rintro rfl
      exact hne h.symm.eq_nil
    cases hr : r.group? with
    | some group => rw [digitBits_of_group hne hvalues hr, digitBits_of_group hne' hvalues' hr]
    | none =>
      have hdecimal : r = .decimal := by
        cases r <;> first | rfl | cases hr
      subst hdecimal
      obtain rfl : a = b := by
        rw [← toLower_of_decimal hvalues, h, toLower_of_decimal hvalues']
      rfl
  · rcases symbols_or_firstInvalid r b with hb | ⟨d, hd⟩
    · obtain ⟨values, hvalues, -⟩ := digitValues_symbols hb
      obtain ⟨valid, rest, rfl, hvalid, hno⟩ := hc
      have := digitValues_eq_ok h.symm hvalues
      rw [digitValues_invalid hvalid hno] at this
      cases this
    · rw [digitBits_firstInvalid hc, digitBits_firstInvalid hd]
      rfl

/-- A numeral stands for one pattern, or is refused for one reason. -/
theorem decode_kind (h : SameLetters a b) (steps : Option Nat) :
    (decode r a steps).mapError patternKind = (decode r b steps).mapError patternKind := by
  rw [decode_eq, decode_eq, mapError_map, mapError_map, digitBits_kind h]

end Rhythm.Notation
