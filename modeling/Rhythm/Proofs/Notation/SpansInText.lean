import Rhythm.Proofs.Notation.Blame
import Rhythm.Proofs.Notation.Layout
import Rhythm.Proofs.Notation.LikeReadings
import Rhythm.Proofs.Notation.SceneLists

/-! All places that are told lie in the text, and the tokens cover what is not blank of it. -/
namespace Rhythm.Notation

open Text

variable {text rest : List Char} {l : Lexeme} {ls : List Lexeme} {n m i : Nat} {c : Char}

def Span.Covers (s : Span) (i : Nat) : Prop := s.start ≤ i ∧ i < s.stop

/-- The tokens stand in the text one after the other, with nothing but blanks between them. Each is a
token by itself, too. -/
structure Tiled (text : List Char) (ls : List Lexeme) : Prop where
  nonempty : ∀ l ∈ ls, 0 < l.span.length
  inside : ∀ l ∈ ls, l.span.stop ≤ text.length
  ordered : ls.Pairwise fun l l' => l.span.stop ≤ l'.span.start
  blank_iff : ∀ i c, text[i]? = some c → (isBlank c = true ↔ ∀ l ∈ ls, ¬ l.span.Covers i)
  alone : ∀ l ∈ ls, tokenize 0 (l.span.slice text) = .ok [⟨l.token, 0, l.span.length⟩]

theorem Layout.ordered (h : Layout n text ls) :
    ls.Pairwise fun l l' => l.span.stop ≤ l'.span.start := by
  induction h with
  | nil => exact .nil
  | blank _ _ ih => exact ih
  | token _ h ih => exact .cons (fun l hl => h.start_le hl) ih

theorem Layout.blank_iff (h : Layout n text ls) (hc : text[i]? = some c) :
    isBlank c = true ↔ ∀ l ∈ ls, ¬ l.span.Covers (n + i) := by
  induction h generalizing i with
  | nil => cases hc
  | @blank n d cs ls hb h ih =>
    cases i with
    | zero =>
      cases hc
      refine iff_of_true hb ?_
      intro l hl hcovers
      have := h.start_le hl
      have := hcovers.1
      omega
    | succ i =>
      rw [Nat.add_comm i, ← Nat.add_assoc]
      exact ih hc
  | @token n piece rest token ls hs h ih =>
    by_cases hi : i < piece.length
    · rw [List.getElem?_append_left hi] at hc
      have hno : ¬ isBlank c = true := by
        rw [hs.not_blank (List.mem_of_getElem? hc)]
        exact Bool.false_ne_true
      refine iff_of_false hno ?_
      intro hnone
      exact hnone _ List.mem_cons_self ⟨Nat.le_add_right _ _, Nat.add_lt_add_left hi n⟩
    · rw [List.getElem?_append_right (Nat.le_of_not_lt hi)] at hc
      have hplace : n + piece.length + (i - piece.length) = n + i := by omega
      have hrest := ih hc
      rw [hplace] at hrest
      rw [hrest, List.forall_mem_cons]
      refine (and_iff_right ?_).symm
      intro hcovers
      exact hi (Nat.lt_of_add_lt_add_left hcovers.2)

theorem tiled (h : tokenize 0 text = .ok ls) : Tiled text ls where
  nonempty l hl := by
    obtain ⟨before, piece, after, -, hspan, hs⟩ := (tokenize_eq_ok_iff.1 h).exists_piece hl
    rw [hspan]
    exact List.length_pos_iff.2 hs.ne_nil
  inside l hl := by
    have := (tokenize_eq_ok_iff.1 h).stop_le hl
    rwa [Nat.zero_add] at this
  ordered := (tokenize_eq_ok_iff.1 h).ordered
  blank_iff i c hc := by
    have := (tokenize_eq_ok_iff.1 h).blank_iff hc
    rwa [Nat.zero_add] at this
  alone l hl := by
    obtain ⟨after, hs, hlength⟩ := (tokenize_eq_ok_iff.1 h).exists_slice hl
    have hend : Spelled (l.span.slice text) [] l.token := hs.before nofun
    have hlayout : Layout 0 (l.span.slice text ++ []) [⟨l.token, 0, (l.span.slice text).length⟩] :=
      .token hend .nil
    rw [tokenize_eq_ok_iff, ← hlength]
    rwa [List.append_nil] at hlayout

/-- The tokens of a text whose first character is at `place`, and the end of it: the place that the
last of the tokens and blanks leaves behind. -/
def tokenizeToEnd (place : Nat) : List Char → Except NotationError (List Lexeme × Span)
  | [] => .ok ([], ⟨place, 0⟩)
  | c :: cs =>
    if isBlank c then tokenizeToEnd (place + 1) cs
    else match scan place c cs with
      | .error e => .error e
      | .ok (token, more) =>
        (tokenizeToEnd (place + (more + 1)) (cs.drop more)).map fun r =>
          (⟨token, place, more + 1⟩ :: r.1, r.2)
termination_by cs => cs.length

/-- No token takes more than is left, so the end is that of the text. -/
theorem tokenizeToEnd_eq (place : Nat) (text : List Char) : tokenizeToEnd place text =
    (tokenize place text).map fun ls => (ls, ⟨place + text.length, 0⟩) := by
  fun_induction tokenize place text with
  | case1 place =>
    rw [tokenizeToEnd]
    rfl
  | case2 place c cs hb ih =>
    rw [tokenizeToEnd, if_pos hb, ih, List.length_cons, Nat.add_right_comm, Nat.add_assoc]
  | case3 place c cs hb err hs =>
    rw [tokenizeToEnd, if_neg hb, hs]
    rfl
  | case4 place c cs hb token more hs ih =>
    obtain ⟨piece, rest, rfl, rfl, -⟩ := spelled_of_scan hs
    rw [List.drop_left] at ih ⊢
    have hend : place + (piece.length + 1) + rest.length =
        place + (c :: (piece ++ rest)).length := by
      rw [List.length_cons, List.length_append]
      omega
    rw [tokenizeToEnd, if_neg hb, hs]
    dsimp only
    rw [List.drop_left, ih, hend]
    cases tokenize (place + (piece.length + 1)) rest <;> rfl

variable {cs : List Char} {err : NotationError}

/-- The text has the second character of a mark of two. -/
theorem scanMarked_stop {fault : Fault} {make : List Char → Token} {p : Char → Bool}
    (hcs : cs.headD ' ' ≠ ' ') (h : scanMarked n fault make p cs.tail = .error err) :
    err.span.stop ≤ n + (cs.length + 1) := by
  have hlength := congrArg List.length (eq_cons_of_headD hcs)
  rw [List.length_cons] at hlength
  unfold scanMarked at h
  dsimp only at h
  split at h <;> cases h
  rw [Span.stop]
  dsimp only
  omega

theorem scan_stop (h : scan n c cs = .error err) : err.span.stop ≤ n + (cs.length + 1) := by
  have hafter : ∀ {a : Char}, a ≠ ' ' → (cs.headD ' ').toLower = a → cs.headD ' ' ≠ ' ' := by
    rintro a ha rfl heq
    rw [heq] at ha
    exact ha rfl
  unfold scan at h
  split at h
  · cases h
  dsimp only at h
  split at h
  · next hx => exact scanMarked_stop (hafter (by decide) hx.2) h
  split at h
  · next ho => exact scanMarked_stop (hafter (by decide) ho.2) h
  split at h
  · cases h
  split at h
  · cases h
  split at h
  · next hm =>
    refine scanMarked_stop ?_ h
    rw [hm.2]
    decide
  split at h
  · cases h
  split at h
  · cases h
  · cases h
    rw [Span.stop]
    dsimp only
    omega

theorem tokenize_stop (h : tokenize n text = .error err) : err.span.stop ≤ n + text.length := by
  fun_induction tokenize n text with
  | case1 => cases h
  | case2 n c cs _ ih =>
    have := ih h
    rw [List.length_cons]
    omega
  | case3 n c cs _ err' hs =>
    cases h
    exact scan_stop hs
  | case4 n c cs _ token more hs ih =>
    cases hrest : tokenize (n + (more + 1)) (cs.drop more) with
    | ok ls =>
      rw [hrest] at h
      cases h
    | error err' =>
      rw [hrest] at h ih
      cases h
      obtain ⟨piece, rest, rfl, rfl, -⟩ := spelled_of_scan hs
      have := ih rfl
      rw [List.drop_left] at this
      rw [List.length_cons, List.length_append]
      omega

theorem stop_join_le {s t : Span} (hs : s.stop ≤ m) (ht : t.stop ≤ m) : (s.join t).stop ≤ m := by
  simp only [Span.join, Span.stop] at hs ht ⊢
  omega

/-- A place that lies in a text of so many characters, whatever the other place is. -/
def placesWithin (m : Nat) : Alignment where
  Aligned s _ := s.stop ≤ m
  join := stop_join_le

theorem tokenize_within (h : n + text.length ≤ m) :
    Likewise (placesWithin m) (List.Forall₂ (Lexeme.Matches (placesWithin m))) (tokenize n text)
      (tokenize n text) := by
  cases ht : tokenize n text with
  | error err => exact ⟨rfl, Nat.le_trans (tokenize_stop ht) h⟩
  | ok ls =>
    refine List.forall₂_same.2 ?_
    intro l hl
    exact ⟨.refl _, Nat.le_trans ((tokenize_eq_ok_iff.1 ht).stop_le hl) h⟩

theorem parseSegment_within (h : n + text.length ≤ m) :
    Likewise (placesWithin m) (Expr.Matches (placesWithin m)) (parseSegment n text)
      (parseSegment n text) :=
  parseSegment_likewise (Nat.le_trans (Nat.le_add_right n _) h) h (tokenize_within h)

theorem parse_within (text : List Char) :
    Likewise (placesWithin text.length) (Parsed.Matches (placesWithin text.length)) (parse text)
      (parse text) := by
  refine parse_likewise (List.forall₂_same.2 ?_)
  intro r hr
  obtain ⟨⟨place, t⟩, ht, rfl⟩ := List.mem_map.1 hr
  refine parseSegment_within ?_
  obtain ⟨i, hi⟩ := List.mem_iff_getElem?.1 ht
  have hseg : (segments text)[i]? = some t := by
    rw [← map_sceneTexts, List.getElem?_map, hi]
    rfl
  rw [sceneTexts_getElem? hseg] at hi
  cases hi
  obtain ⟨before, after, heq, hlength⟩ := segment_in_text hseg
  have := congrArg List.length heq
  rw [List.length_append, List.length_append] at this
  dsimp only
  omega

theorem spans_within {e e' : Expr} (h : e.Matches (placesWithin m) e') :
    ∀ s ∈ e.spans, s.stop ≤ m := by
  have hparts : ∀ {ps ps' : List Expr}, ps.length = ps'.length →
      (∀ (i : Nat) (p p' : Expr), ps[i]? = some p → ps'[i]? = some p' →
        ∀ s ∈ p.spans, s.stop ≤ m) → ∀ s ∈ Expr.spansAll ps, s.stop ≤ m := by
    intro ps ps' hl hp s hs
    rw [Expr.spansAll_eq_flatMap] at hs
    obtain ⟨p, hmem, hs⟩ := List.mem_flatMap.1 hs
    obtain ⟨i, hi⟩ := List.mem_iff_getElem?.1 hmem
    have hlt : i < ps'.length := by
      rw [← hl]
      exact (List.getElem?_eq_some_iff.1 hi).1
    exact hp i p _ hi (List.getElem?_eq_getElem hlt) s hs
  induction h with
  | literal => exact nofun
  | generator _ _ hs => exact List.forall_mem_singleton.2 hs
  | bell _ _ hs => exact List.forall_mem_singleton.2 hs
  | accented _ _ iha ihe =>
    rw [Expr.spans]
    exact List.forall_mem_append.2 ⟨iha, ihe⟩
  | quantized _ _ _ hs ih =>
    rw [Expr.spans]
    exact List.forall_mem_cons.2 ⟨hs, ih⟩
  | combination _ _ _ hs ihl ihr =>
    rw [Expr.spans]
    exact List.forall_mem_cons.2 ⟨hs, List.forall_mem_append.2 ⟨ihl, ihr⟩⟩
  | chain hl _ hs ih =>
    rw [Expr.spans]
    exact List.forall_mem_cons.2 ⟨hs, hparts hl ih⟩
  | scenes hl _ ih =>
    rw [Expr.spans]
    exact hparts hl ih
  | progressive _ _ ih | invert _ ih | reverse _ ih | rotate _ _ ih =>
    rw [Expr.spans]
    exact ih

/-- The places in an expression lie in a text of so many characters, and so does the place of
whatever fails in an evaluation of it. -/
structure Expr.Inside (m : Nat) (e : Expr) : Prop where
  spans : ∀ s ∈ e.spans, s.stop ≤ m
  faults : ∀ (σ : Type) (seed : UInt64) (resolve : Resolver σ) (memory : σ)
    (err : NotationError), (e.evalWith seed resolve memory).1 = .error err → err.span.stop ≤ m

theorem Expr.Inside.of_spans {e : Expr} (h : ∀ s ∈ e.spans, s.stop ≤ m) : e.Inside m where
  spans := h
  faults _ _ _ _ _ herr := h _ (span_mem_of_evalWith herr)

theorem stop_of_warnings {ws ws' : List NotationError}
    (h : List.Forall₂ (NotationError.Matches (placesWithin m)) ws ws') :
    ∀ w ∈ ws, w.span.stop ≤ m := by
  induction h with
  | nil => exact nofun
  | cons hw _ ih => exact List.forall_mem_cons.2 ⟨hw.span, ih⟩

/-- The tokens of a text tile it, and cutting it stops after its last character, which is the end
that the parser goes by. Every fault, every warning and every place in an expression lies in the
text, and so does the place of whatever fails in an evaluation of the expression or of one of its
scenes. -/
theorem places_in_text (text : List Char) :
    (∀ ls, tokenize 0 text = .ok ls →
      Tiled text ls ∧ tokenizeToEnd 0 text = .ok (ls, (Cursor.start 0 text ls).finish) ∧
        (Cursor.start 0 text ls).finish = ⟨text.length, 0⟩) ∧
    (∀ err, tokenize 0 text = .error err ∨ parseExpr text = .error err ∨
      parse text = .error err → err.span.stop ≤ text.length) ∧
    (∀ e, parseExpr text = .ok e → e.Inside text.length) ∧
    ∀ parsed, parse text = .ok parsed →
      (∀ w ∈ parsed.warnings, w.span.stop ≤ text.length) ∧
        ∀ e ∈ parsed.expr :: Performance.parts parsed.expr, e.Inside text.length := by
  have hzero : 0 + text.length ≤ text.length := Nat.le_of_eq (Nat.zero_add _)
  have hexpr := parseSegment_within hzero
  have htext := parse_within text
  refine ⟨?_, ?_, ?_, ?_⟩
  · intro ls h
    refine ⟨tiled h, ?_, congrArg (Span.mk · 0) (Nat.zero_add _)⟩
    rw [tokenizeToEnd_eq, h]
    rfl
  · rintro err (h | h | h)
    · exact Nat.le_trans (tokenize_stop h) hzero
    · exact (hexpr.error h h).span
    · exact (htext.error h h).span
  · intro e h
    exact Expr.Inside.of_spans (spans_within (hexpr.ok h h))
  · intro parsed h
    have hm := htext.ok h h
    have hspans := spans_within hm.expr
    refine ⟨stop_of_warnings hm.warnings, List.forall_mem_cons.2 ⟨.of_spans hspans, ?_⟩⟩
    intro e he
    exact .of_spans fun s hs => hspans s (Expr.spans_subset_of_parts he hs)

/-- A sum that is too long to be played, and a name that nothing has. -/
theorem places_in_text_of_two : ∃ ls parsed err, tokenize 0 "1:127+1:128|Q".toList = .ok ls ∧
    Tiled "1:127+1:128|Q".toList ls ∧ parse "1:127+1:128|Q".toList = .ok parsed ∧
    parsed.warnings = [⟨.inScene 2 (.unknownPattern ['Q']), ⟨12, 1⟩⟩] ∧
    (∀ w ∈ parsed.warnings, w.span.stop ≤ 13) ∧ parsed.expr.eval 0 = .error err ∧
    err.span.stop ≤ 13 := by
  have hcut : (tokenize 0 "1:127+1:128|Q".toList).isOk = true := by decide +kernel
  have hwarned : (parse "1:127+1:128|Q".toList).toOption.map (·.warnings) =
      some [⟨.inScene 2 (.unknownPattern ['Q']), ⟨12, 1⟩⟩] := by decide +kernel
  have hfails : (parse "1:127+1:128|Q".toList).toOption.map (fun p => (p.expr.eval 0).isOk) =
      some false := by decide +kernel
  have hlength : "1:127+1:128|Q".toList.length = 13 := rfl
  obtain ⟨htiled, -, -, hplaces⟩ := places_in_text "1:127+1:128|Q".toList
  rw [hlength] at hplaces
  cases ht : tokenize 0 "1:127+1:128|Q".toList with
  | error err =>
    rw [ht] at hcut
    cases hcut
  | ok ls =>
    cases hp : parse "1:127+1:128|Q".toList with
    | error err =>
      rw [hp] at hwarned
      cases hwarned
    | ok parsed =>
      rw [hp] at hwarned hfails
      obtain ⟨hwarnings, hinside⟩ := hplaces parsed hp
      cases he : parsed.expr.eval 0 with
      | ok r =>
        have hno : (parsed.expr.eval 0).isOk = false := Option.some.inj hfails
        rw [he] at hno
        cases hno
      | error err =>
        have hfault := (hinside parsed.expr List.mem_cons_self).faults Unit 0 atStart () err he
        exact ⟨ls, parsed, err, rfl, (htiled ls ht).1, rfl, Option.some.inj hwarned, hwarnings, he,
          hfault⟩

end Rhythm.Notation
