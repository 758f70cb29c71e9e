import Rhythm.Notation.Lexer
import Rhythm.Proofs.Notation.LikeReadings

/-! Notation does not tell capital letters from small ones. -/
namespace Rhythm.Notation

open Text

variable {a b cs ds : List Char} {c d : Char} {p : Char → Bool} {text text' : List Char} {n : Nat}

/-- Places agree if they are the same. -/
def samePlaces : Alignment where
  Aligned := Eq
  join := by
    rintro s t _ _ rfl rfl
    rfl

theorem caseBlind_ofChar? : CaseBlind Mark.ofChar? := caseBlind_of_capitals (by decide)

theorem caseBlind_isBlank : CaseBlind isBlank := caseBlind_of_capitals (by decide)

theorem caseBlind_isHexDigit : CaseBlind isHexDigit := by
  intro c
  rw [isHexDigit, caseBlind_digit?, isHexDigit]

theorem caseBlind_isMorse : CaseBlind isMorse := caseBlind_of_capitals (by decide +kernel)

theorem caseBlind_isBar : CaseBlind (· == '|') := caseBlind_of_capitals (by decide)

/-- The same token of the same length. -/
def SameScan (r r' : Token × Nat) : Prop := r.1.Matches r'.1 ∧ r.2 = r'.2

theorem scanMarked_sameLetters {fault : Fault} {make : List Char → Token}
    (hmake : ∀ {a b : List Char}, SameLetters a b → (make a).Matches (make b))
    (hp : CaseBlind p) (h : SameLetters a b) :
    Likewise samePlaces SameScan (scanMarked n fault make p a) (scanMarked n fault make p b) := by
  have htake := h.takeWhile hp
  unfold scanMarked
  dsimp only
  rw [htake.isEmpty_eq]
  split
  · exact ⟨rfl, rfl⟩
  · exact ⟨hmake htake, congrArg (· + 1) htake.length_eq⟩

theorem scan_sameLetters (hc : c.toLower = d.toLower) (h : SameLetters cs ds) :
    Likewise samePlaces SameScan (scan n c cs) (scan n d ds) := by
  have hnought : c = '0' ↔ d = '0' := eq_iff_of_toLower (by decide) hc
  have hafter := h.headD (d := ' ')
  have hcolon : cs.headD ' ' = ':' ↔ ds.headD ' ' = ':' := eq_iff_of_toLower (by decide) hafter
  unfold scan
  simp only [caseBlind_ofChar?.eq hc, hnought, hcolon, hc, hafter, caseBlind_isDigit.eq hc,
    caseBlind_isDigit.eq hafter, caseBlind_isAlphabetic.eq hc, h.takeWhile_isDigit]
  split
  · exact ⟨.mark _, rfl⟩
  split
  · exact scanMarked_sameLetters (.code .hex) caseBlind_isHexDigit h.tail
  split
  · exact scanMarked_sameLetters (.code .octal) caseBlind_isHexDigit h.tail
  split
  · exact ⟨.code .decimal rfl, rfl⟩
  split
  · exact ⟨.code .octal rfl, rfl⟩
  split
  · exact scanMarked_sameLetters .morse caseBlind_isMorse h.tail
  split
  · next hdigit =>
    have hcdigit : c.isDigit = true := (caseBlind_isDigit.eq hc).trans hdigit
    obtain rfl : c = d := by rw [← toLower_of_isDigit hcdigit, hc, toLower_of_isDigit hdigit]
    exact ⟨.digits _, rfl⟩
  split
  · have hletters := h.takeWhile caseBlind_isAlphabetic
    exact ⟨.word (.cons hc hletters), hletters.length_eq⟩
  · exact ⟨rfl, rfl⟩

theorem tokenize_sameLetters (h : SameLetters a b) :
    Likewise samePlaces (List.Forall₂ (Lexeme.Matches samePlaces)) (tokenize n a)
      (tokenize n b) := by
  fun_induction tokenize n a generalizing b with
  | case1 => 
    rw [h.eq_nil, tokenize]
    exact .nil
  | case2 n c cs hb ih =>
    obtain ⟨d, ds, rfl, hd, hs⟩ := h.exists_cons
    rw [caseBlind_isBlank.eq hd] at hb
    rw [tokenize, if_pos hb]
    exact ih hs
  | case3 n c cs hb err hscan =>
    obtain ⟨d, ds, rfl, hd, hs⟩ := h.exists_cons
    rw [caseBlind_isBlank.eq hd] at hb
    rw [tokenize, if_neg hb]
    obtain ⟨_, err', herr, hs', he⟩ | ⟨_, _, hr, -, -⟩ := (scan_sameLetters hd hs).elim
    · rw [hs']
      rw [hscan] at herr
      cases herr
      exact he
    · rw [hscan] at hr
      cases hr
  | case4 n c cs hb token more hscan ih =>
    obtain ⟨d, ds, rfl, hd, hs⟩ := h.exists_cons
    rw [caseBlind_isBlank.eq hd] at hb
    rw [tokenize, if_neg hb]
    obtain ⟨_, _, herr, -, -⟩ | ⟨_, ⟨token', _⟩, hr, hs', ht, rfl⟩ := (scan_sameLetters hd hs).elim
    · rw [hscan] at herr
      cases herr
    · rw [hscan] at hr
      cases hr
      rw [hs']
      exact (ih (hs.drop more)).map fun _ _ hls => .cons ⟨ht, rfl⟩ hls

/-- Two texts are cut at the same places. -/
theorem sceneTexts_sameLetters (h : SameLetters a b) :
    List.Forall₂ (fun t t' => t.1 = t'.1 ∧ SameLetters t.2 t'.2)
      (sceneTexts.located n (a.splitOn '|')) (sceneTexts.located n (b.splitOn '|')) := by
  have hsplit : List.Forall₂ SameLetters (a.splitOn '|') (b.splitOn '|') := by
    have hcut := forall₂_splitOnP (sameLetters_iff.1 h) fun _ _ => caseBlind_isBar.eq
    exact hcut.imp fun _ _ => sameLetters_iff.2
  generalize a.splitOn '|' = ts at hsplit
  generalize b.splitOn '|' = ts' at hsplit
  induction hsplit generalizing n with
  | nil => exact .nil
  | cons ht _ ih =>
    rw [sceneTexts.located, sceneTexts.located, ht.length_eq]
    exact .cons ⟨rfl, ht⟩ ih

theorem parse_sameLetters (h : SameLetters text text') :
    Likewise samePlaces (Parsed.Matches samePlaces) (parse text) (parse text') := by
  refine parse_likewise ?_
  unfold readings
  rw [List.forall₂_map_left_iff, List.forall₂_map_right_iff]
  refine (sceneTexts_sameLetters h).imp ?_
  rintro ⟨n, t⟩ ⟨n', t'⟩ ⟨hn, ht⟩
  obtain rfl : n = n' := hn
  refine parseSegment_likewise rfl ?_ (tokenize_sameLetters ht)
  exact congrArg (fun k => Span.mk (n + k) 0) ht.length_eq

theorem eq_of_matches {e e' : Expr} (h : e.Matches samePlaces e') : e = e' := by
  have hparts : ∀ {ps ps' : List Expr}, ps.length = ps'.length →
      (∀ (i : Nat) (p p' : Expr), ps[i]? = some p → ps'[i]? = some p' → p = p') → ps = ps' := by
    intro ps ps' hl hp
    apply List.ext_getElem hl
    intro i hi hi'
    exact hp i _ _ (List.getElem?_eq_getElem hi) (List.getElem?_eq_getElem hi')
  induction h with
  | literal p => rfl
  | generator family args hs =>
    cases hs
    rfl
  | bell steps seed hs =>
    cases hs
    rfl
  | accented _ _ iha ihe => rw [iha, ihe]
  | quantized _ steps clockwise hs ihe =>
    cases hs
    rw [ihe]
  | progressive suffix _ ihe => rw [ihe]
  | combination how _ _ hs ihl ihr =>
    cases hs
    rw [ihl, ihr]
  | chain hl _ hs ih =>
    cases hs
    rw [hparts hl ih]
  | invert _ ihe => rw [ihe]
  | reverse _ ihe => rw [ihe]
  | rotate _ offset ihe => rw [ihe]
  | scenes hl _ ih => rw [hparts hl ih]

/-- What is told of a fault. -/
def NotationError.told (e : NotationError) : FaultKind × Span := (e.kind, e.span)

theorem map_told_eq {ws ws' : List NotationError}
    (h : List.Forall₂ (NotationError.Matches samePlaces) ws ws') :
    ws'.map (·.told) = ws.map (·.told) := by
  induction h with
  | nil => rfl
  | @cons w w' ws ws' hw _ ih =>
    have htold : w.told = w'.told := Prod.ext hw.kind hw.span
    rw [List.map_cons, List.map_cons, ih, htold]

/-- Texts that differ only in the case of letters are both read, as the same expression at the same
places, with warnings of the same kinds at the same places, or both refused, for a fault of the same
kind at the same place. -/
theorem parse_in_any_case (h : SameLetters text text') :
    ((∃ parsed, parse text' = .ok parsed) ↔ ∃ parsed, parse text = .ok parsed) ∧
    (∀ parsed parsed', parse text = .ok parsed → parse text' = .ok parsed' →
      parsed'.expr = parsed.expr ∧
        parsed'.warnings.map (·.told) = parsed.warnings.map (·.told)) ∧
    ∀ err err', parse text = .error err → parse text' = .error err' → err'.told = err.told := by
  have hlike := parse_sameLetters h
  refine ⟨hlike.exists_ok_iff, ?_, ?_⟩
  · intro parsed parsed' hp hp'
    have hm := hlike.ok hp hp'
    exact ⟨(eq_of_matches hm.expr).symm, map_told_eq hm.warnings⟩
  · intro err err' he he'
    have hm := hlike.error he he'
    exact (Prod.ext hm.kind hm.span : err.told = err'.told).symm

/-- A numeral with its mark, an operator before a call, and a name that nothing has. -/
theorem parse_in_any_case_of_three :
    SameLetters "0xfF|Inv E(3,8)|qq".toList "0XFf|iNV e(3,8)|Qq".toList ∧
      ∃ parsed parsed', parse "0xfF|Inv E(3,8)|qq".toList = .ok parsed ∧
        parse "0XFf|iNV e(3,8)|Qq".toList = .ok parsed' ∧ parsed'.expr = parsed.expr ∧
        parsed'.warnings.map (·.told) = [(.unknownGenerator, ⟨16, 2⟩)] := by
  have hletters : SameLetters "0xfF|Inv E(3,8)|qq".toList "0XFf|iNV e(3,8)|Qq".toList := by decide
  have hwarned : (parse "0xfF|Inv E(3,8)|qq".toList).toOption.map
      (·.warnings.map (·.told)) = some [(.unknownGenerator, ⟨16, 2⟩)] := by decide +kernel
  obtain ⟨hiff, hsame, -⟩ := parse_in_any_case hletters
  cases hp : parse "0xfF|Inv E(3,8)|qq".toList with
  | error err =>
    rw [hp] at hwarned
    cases hwarned
  | ok parsed =>
    obtain ⟨parsed', hp'⟩ := hiff.2 ⟨parsed, hp⟩
    obtain ⟨hexpr, hwarnings⟩ := hsame parsed parsed' hp hp'
    rw [hp] at hwarned
    exact ⟨hletters, parsed, parsed', rfl, hp', hexpr,
      hwarnings.trans (Option.some.inj hwarned)⟩

end Rhythm.Notation
