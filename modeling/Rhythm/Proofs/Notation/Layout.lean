import Rhythm.Notation.Scenes
import Rhythm.Proofs.Notation.Spelling

/-! How a text is laid out in tokens. The tokens of a text are the pieces of a layout, and the bars
among them part its segments, each laid out by itself. -/
namespace Rhythm.Notation

open Text

variable {c : Char} {token : Token} {n : Nat} {piece rest text : List Char} {l : Lexeme}
  {ls : List Lexeme}

/-- A text whose first character is at a place, as tokens with blanks between them. -/
inductive Layout : Nat → List Char → List Lexeme → Prop
  | nil {n : Nat} : Layout n [] []
  | blank {n : Nat} {c : Char} {cs : List Char} {ls : List Lexeme} (hb : isBlank c = true)
    (h : Layout (n + 1) cs ls) : Layout n (c :: cs) ls
  | token {n : Nat} {piece rest : List Char} {token : Token} {ls : List Lexeme}
    (hs : Spelled piece rest token) (h : Layout (n + piece.length) rest ls) :
    Layout n (piece ++ rest) (⟨token, n, piece.length⟩ :: ls)

/-- The tokens of a text are those of its layout. -/
theorem tokenize_eq_ok_iff : tokenize n text = .ok ls ↔ Layout n text ls := by
  constructor
  · intro h
    fun_induction tokenize n text generalizing ls with
    | case1 =>
      cases h
      exact .nil
    | case2 n c cs hb ih => exact .blank hb (ih h)
    | case3 => cases h
    | case4 n c cs hb token more hs ih =>
      obtain ⟨piece, rest, rfl, rfl, hspelled⟩ := spelled_of_scan hs
      rw [List.drop_left] at h ih
      cases hrest : tokenize (n + (piece.length + 1)) rest with
      | error err =>
        rw [hrest] at h
        cases h
      | ok ls' =>
        rw [hrest] at h
        cases h
        exact .token hspelled (ih hrest)
  · intro h
    induction h with
    | nil => rw [tokenize]
    | blank hb _ ih => rw [tokenize, if_pos hb, ih]
    | token hs _ ih =>
      rw [tokenize_of_spelled _ hs, ih]
      rfl

/-- Each token stands somewhere in the text. -/
theorem Layout.exists_piece (h : Layout n text ls) (hl : l ∈ ls) : ∃ before piece after,
    text = before ++ (piece ++ after) ∧ l.span = ⟨n + before.length, piece.length⟩ ∧
      Spelled piece after l.token := by
  induction h with
  | nil => cases hl
  | blank hb _ ih =>
    obtain ⟨before, piece, after, rfl, hspan, hs⟩ := ih hl
    refine ⟨_ :: before, piece, after, rfl, ?_, hs⟩
    rw [hspan, List.length_cons, Nat.add_right_comm, Nat.add_assoc]
  | @token n piece rest token ls hs _ ih =>
    rcases List.mem_cons.1 hl with rfl | hl
    · exact ⟨[], piece, rest, rfl, rfl, hs⟩
    · obtain ⟨before, piece', after, rfl, hspan, hs'⟩ := ih hl
      refine ⟨piece ++ before, piece', after, (List.append_assoc ..).symm, ?_, hs'⟩
      rw [hspan, List.length_append, Nat.add_assoc]

theorem Layout.start_le (h : Layout n text ls) (hl : l ∈ ls) : n ≤ l.span.start := by
  obtain ⟨before, piece, after, -, hspan, -⟩ := h.exists_piece hl
  rw [hspan]
  exact Nat.le_add_right _ _

theorem Layout.stop_le (h : Layout n text ls) (hl : l ∈ ls) :
    l.span.stop ≤ n + text.length := by
  obtain ⟨before, piece, after, rfl, hspan, -⟩ := h.exists_piece hl
  rw [hspan, Span.stop, List.length_append, List.length_append]
  dsimp only
  omega

/-- The characters of a text that a stretch covers. -/
def Span.slice (s : Span) (text : List Char) : List Char := (text.drop s.start).take s.length

theorem Layout.exists_slice (h : Layout 0 text ls) (hl : l ∈ ls) :
    ∃ after, Spelled (l.span.slice text) after l.token ∧
      (l.span.slice text).length = l.span.length := by
  obtain ⟨before, piece, after, rfl, hspan, hs⟩ := h.exists_piece hl
  have hslice : l.span.slice (before ++ (piece ++ after)) = piece := by
    rw [Span.slice, hspan, Nat.zero_add, List.drop_left, List.take_left]
  rw [hslice, hspan]
  exact ⟨after, hs, rfl⟩

/-- Whether a token is the bar between two scenes. -/
def Lexeme.isBar (l : Lexeme) : Bool := l.token == .mark .pipe

theorem splitOn_append_of_not_mem (h : '|' ∉ piece) :
    (piece ++ rest).splitOn '|' = (rest.splitOn '|').modifyHead (piece ++ ·) := by
  induction piece with
  | nil =>
    obtain ⟨s, ss, hs⟩ := List.exists_cons_of_ne_nil (List.splitOn_ne_nil '|' rest)
    rw [List.nil_append, hs]
    rfl
  | cons c cs ih =>
    rw [List.mem_cons, not_or] at h
    rw [List.cons_append, List.splitOn_cons_eq_if_modifyHead,
      if_neg (by simpa using Ne.symm h.1), ih h.2, List.modifyHead_modifyHead]
    rfl

/-- A segment starts as the text does, or is empty. -/
theorem head?_of_splitOn {s : List Char} {ss : List (List Char)} (h : rest.splitOn '|' = s :: ss) :
    ∀ c ∈ s.head?, c ∈ rest.head? := by
  cases rest with
  | nil =>
    rw [List.splitOn_nil] at h
    cases h
    exact fun c hc => hc
  | cons c cs =>
    rw [List.splitOn_cons_eq_if_modifyHead] at h
    split at h
    · cases h
      exact nofun
    · obtain ⟨t, ts, ht⟩ := List.exists_cons_of_ne_nil (List.splitOn_ne_nil '|' cs)
      rw [ht] at h
      cases h
      exact fun c hc => hc

/-- The segments of a text are laid out in the tokens between its bars. -/
theorem Layout.segments (h : Layout n text ls) :
    List.Forall₂ (fun t ts => Layout t.1 t.2 ts) (sceneTexts.located n (text.splitOn '|'))
      (ls.splitOnP Lexeme.isBar) := by
  induction h with
  | nil => exact .cons .nil .nil
  | @blank n c cs ls hb _ ih =>
    have hc : ¬ (c == '|') = true := by
      rw [beq_iff_eq]
      rintro rfl
      cases hb
    obtain ⟨s, ss, hs⟩ := List.exists_cons_of_ne_nil (List.splitOn_ne_nil '|' cs)
    rw [List.splitOn_cons_eq_if_modifyHead, if_neg hc, hs, List.modifyHead_cons,
      sceneTexts.located]
    rw [hs, sceneTexts.located] at ih
    generalize ls.splitOnP Lexeme.isBar = tss at ih
    cases ih with
    | cons hfirst hothers =>
      rw [Nat.add_right_comm n 1 s.length] at hothers
      exact .cons (.blank hb hfirst) hothers
  | @token n piece rest token ls hs _ ih =>
    by_cases ht : token = .mark .pipe
    · subst ht
      cases hs
      have hchar : (Mark.pipe.char == '|') = true := rfl
      rw [List.singleton_append, List.splitOn_cons_eq_if_modifyHead, if_pos hchar,
        sceneTexts.located, List.splitOnP_cons_eq_if_modifyHead, if_pos (by rfl)]
      exact .cons .nil ih
    · have hbar : ¬ Lexeme.isBar ⟨token, n, piece.length⟩ = true := by
        rw [Lexeme.isBar, beq_iff_eq]
        exact ht
      obtain ⟨s, ss, hsplit⟩ := List.exists_cons_of_ne_nil (List.splitOn_ne_nil '|' rest)
      rw [splitOn_append_of_not_mem (hs.bar_not_mem ht), hsplit, List.modifyHead_cons,
        sceneTexts.located, List.splitOnP_cons_eq_if_modifyHead, if_neg hbar]
      rw [hsplit, sceneTexts.located] at ih
      generalize ls.splitOnP Lexeme.isBar = tss at ih
      cases ih with
      | cons hfirst hothers =>
        rw [List.length_append, ← Nat.add_assoc]
        have hpiece : Spelled piece s token :=
          hs.before fun c hc => .inl (head?_of_splitOn hsplit c hc)
        exact .cons (.token hpiece hfirst) hothers

end Rhythm.Notation
