import Rhythm.Proofs.Notation.Layout
import Rhythm.Proofs.Notation.LikeReadings
import Rhythm.Proofs.Notation.Places

/-! Blanks between tokens make no difference. -/
namespace Rhythm.Notation

open Text

variable {text text' rest : List Char} {ls ls' : List Lexeme} {gap : Nat → List Char} {n m : Nat}

/-- Any places agree. -/
def anyPlaces : Alignment where
  Aligned _ _ := True
  join _ _ := trivial

theorem forall₂_matches (h : ls'.map (·.token) = ls.map (·.token)) :
    List.Forall₂ (Lexeme.Matches anyPlaces) ls ls' := by
  induction ls generalizing ls' with
  | nil =>
    rw [List.map_eq_nil_iff.1 h]
    exact .nil
  | cons l ls ih =>
    obtain ⟨l', ls', rfl, ht, hls⟩ := List.map_eq_cons_iff.1 h
    exact .cons ⟨ht ▸ .refl l.token, trivial⟩ (ih hls)

theorem isBar_matches {A : Alignment} (l l' : Lexeme) (h : l.Matches A l') : l.isBar = l'.isBar := by
  obtain ⟨t, s⟩ := l
  obtain ⟨t', s'⟩ := l'
  cases h.token <;> rfl

/-- Segments that are laid out in tokens that match are read alike. -/
theorem readings_of_layouts {ts ts' : List (Nat × List Char)} {lss lss' : List (List Lexeme)}
    (h : List.Forall₂ (fun t ts => Layout t.1 t.2 ts) ts lss)
    (h' : List.Forall₂ (fun t ts => Layout t.1 t.2 ts) ts' lss')
    (hm : List.Forall₂ (List.Forall₂ (Lexeme.Matches anyPlaces)) lss lss') :
    List.Forall₂ (Likewise anyPlaces (Expr.Matches anyPlaces))
      (ts.map fun t => parseSegment t.1 t.2) (ts'.map fun t => parseSegment t.1 t.2) := by
  induction hm generalizing ts ts' with
  | nil =>
    cases h
    cases h'
    exact .nil
  | cons hls _ ih =>
    obtain ⟨t, ts, ht, hts, rfl⟩ := List.forall₂_cons_right_iff.1 h
    obtain ⟨t', ts', ht', hts', rfl⟩ := List.forall₂_cons_right_iff.1 h'
    refine .cons (parseSegment_likewise trivial trivial ?_) (ih hts hts')
    rw [tokenize_eq_ok_iff.2 ht, tokenize_eq_ok_iff.2 ht']
    exact hls

theorem parse_of_layouts (h : Layout 0 text ls) (h' : Layout 0 text' ls')
    (ht : ls'.map (·.token) = ls.map (·.token)) :
    Likewise anyPlaces (Parsed.Matches anyPlaces) (parse text) (parse text') :=
  parse_likewise (readings_of_layouts h.segments h'.segments
    (forall₂_splitOnP (forall₂_matches ht) isBar_matches))

/-- A text with more characters put in front of each place, and at its end. -/
def spread (gap : Nat → List Char) (place : Nat) : List Char → List Char
  | [] => gap place
  | c :: cs => gap place ++ c :: spread gap (place + 1) cs

/-- What is put in is blank, and none of it inside a token. -/
structure Spaced (gap : Nat → List Char) (ls : List Lexeme) : Prop where
  blank : ∀ place, ∀ c ∈ gap place, isBlank c = true
  between : ∀ l ∈ ls, ∀ place, l.span.start < place → place < l.span.stop → gap place = []

theorem Layout.blanks {blanks : List Char} (hb : ∀ c ∈ blanks, isBlank c = true)
    (h : Layout (n + blanks.length) rest ls) : Layout n (blanks ++ rest) ls := by
  induction blanks generalizing n with
  | nil => exact h
  | cons c cs ih =>
    rw [List.length_cons, Nat.add_comm cs.length, ← Nat.add_assoc] at h
    exact .blank (hb c List.mem_cons_self) (ih (fun d hd => hb d (List.mem_cons_of_mem c hd)) h)

/-- Nothing is put between characters that stand together. -/
theorem spread_piece {piece : List Char} (hne : piece ≠ [])
    (h : ∀ place, n < place → place < n + piece.length → gap place = []) :
    spread gap n (piece ++ rest) = gap n ++ (piece ++ spread gap (n + piece.length) rest) := by
  induction piece generalizing n with
  | nil => exact absurd rfl hne
  | cons c cs ih =>
    rw [List.cons_append, spread, List.cons_append]
    by_cases hcs : cs = []
    · subst hcs
      rfl
    · have hnone : gap (n + 1) = [] := by
        apply h (n + 1) (Nat.lt_succ_self n)
        have := List.length_pos_iff.2 hcs
        rw [List.length_cons]
        omega
      rw [ih hcs, hnone, List.nil_append, List.length_cons, Nat.add_right_comm, Nat.add_assoc]
      intro place hlt hle
      apply h place (by omega)
      rw [List.length_cons]
      omega

theorem head?_spread (hb : ∀ place, ∀ c ∈ gap place, isBlank c = true) :
    ∀ c ∈ (spread gap n rest).head?, c ∈ rest.head? ∨ Parts c := by
  intro c hc
  have hgap : c ∈ (gap n).head? → Parts c := fun h => .inl (hb n c (List.mem_of_mem_head? h))
  cases rest with
  | nil => exact .inr (hgap hc)
  | cons d ds =>
    rw [spread, List.head?_append] at hc
    cases hg : (gap n).head? with
    | none =>
      rw [hg] at hc
      exact .inl hc
    | some b =>
      rw [hg] at hc hgap
      exact .inr (hgap hc)

/-- A text with gaps between its tokens is laid out in the same tokens. -/
theorem Layout.spread (h : Layout n text ls) (hs : Spaced gap ls) (m : Nat) :
    ∃ ls', Layout m (spread gap n text) ls' ∧ ls'.map (·.token) = ls.map (·.token) := by
  induction h generalizing m with
  | @nil n =>
    have hgap : Layout m (gap n ++ []) [] := .blanks (hs.blank n) .nil
    rw [List.append_nil] at hgap
    exact ⟨[], hgap, rfl⟩
  | @blank n c cs ls hb _ ih =>
    obtain ⟨ls', h', ht⟩ := ih hs (m + (gap n).length + 1)
    exact ⟨ls', .blanks (hs.blank n) (.blank hb h'), ht⟩
  | @token n piece rest token ls hp _ ih =>
    have hrest : Spaced gap ls := ⟨hs.blank, fun l hl => hs.between l (List.mem_cons_of_mem _ hl)⟩
    obtain ⟨ls', h', ht⟩ := ih hrest (m + (gap n).length + piece.length)
    have hpiece : Spelled piece (Notation.spread gap (n + piece.length) rest) token :=
      hp.before (head?_spread hs.blank)
    rw [spread_piece hp.ne_nil (hs.between _ List.mem_cons_self)]
    refine ⟨_, .blanks (hs.blank n) (.token hpiece h'), ?_⟩
    rw [List.map_cons, List.map_cons, ht]

theorem unplaced_of_matches {A : Alignment} {e e' : Expr} (h : e.Matches A e') :
    e'.unplaced = e.unplaced := by
  have hparts : ∀ {ps ps' : List Expr}, ps.length = ps'.length →
      (∀ (i : Nat) (p p' : Expr), ps[i]? = some p → ps'[i]? = some p' →
        p'.unplaced = p.unplaced) → Expr.unplacedAll ps' = Expr.unplacedAll ps := by
    intro ps ps' hl hp
    rw [Expr.unplacedAll_eq_map, Expr.unplacedAll_eq_map]
    apply List.ext_getElem
    · rw [List.length_map, List.length_map, hl]
    · intro i hi' hi
      rw [List.length_map] at hi hi'
      rw [List.getElem_map, List.getElem_map]
      exact hp i _ _ (List.getElem?_eq_getElem hi) (List.getElem?_eq_getElem hi')
  induction h with
  | literal | generator | bell => rfl
  | accented _ _ iha ihe => rw [Expr.unplaced, Expr.unplaced, iha, ihe]
  | combination _ _ _ _ ihl ihr => rw [Expr.unplaced, Expr.unplaced, ihl, ihr]
  | chain hl _ _ ih => rw [Expr.unplaced, Expr.unplaced, hparts hl ih]
  | scenes hl _ ih => rw [Expr.unplaced, Expr.unplaced, hparts hl ih]
  | quantized _ _ _ _ ih | progressive _ _ ih | invert _ ih | reverse _ ih | rotate _ _ ih =>
    rw [Expr.unplaced, Expr.unplaced, ih]

theorem map_kind_eq {A : Alignment} {ws ws' : List NotationError}
    (h : List.Forall₂ (NotationError.Matches A) ws ws') : ws'.map (·.kind) = ws.map (·.kind) := by
  induction h with
  | nil => rfl
  | cons hw _ ih => rw [List.map_cons, List.map_cons, ih, hw.kind]

/-- A text with gaps between its tokens has the same tokens. Both texts are read, as one expression
apart from the places in it, with warnings of the same kinds, or both are refused, for a fault of the
same kind. -/
theorem parse_with_gaps (h : tokenize 0 text = .ok ls) (hs : Spaced gap ls) :
    (∃ ls', tokenize 0 (spread gap 0 text) = .ok ls' ∧
      ls'.map (·.token) = ls.map (·.token)) ∧
    ((∃ parsed, parse (spread gap 0 text) = .ok parsed) ↔ ∃ parsed, parse text = .ok parsed) ∧
    (∀ parsed parsed', parse text = .ok parsed → parse (spread gap 0 text) = .ok parsed' →
      parsed'.expr.unplaced = parsed.expr.unplaced ∧
        parsed'.warnings.map (·.kind) = parsed.warnings.map (·.kind)) ∧
    ∀ err err', parse text = .error err → parse (spread gap 0 text) = .error err' →
      err'.kind = err.kind := by
  have hlayout := tokenize_eq_ok_iff.1 h
  obtain ⟨ls', hlayout', htokens⟩ := hlayout.spread hs 0
  have hlike := parse_of_layouts hlayout hlayout' htokens
  refine ⟨⟨ls', tokenize_eq_ok_iff.2 hlayout', htokens⟩, hlike.exists_ok_iff, ?_, ?_⟩
  · intro parsed parsed' hp hp'
    have hm := hlike.ok hp hp'
    exact ⟨unplaced_of_matches hm.expr, map_kind_eq hm.warnings⟩
  · intro err err' he he'
    exact (hlike.error he he').kind.symm

/-- A blank is put in front of each segment and after the last one. -/
theorem parse_with_gaps_of_three :
    let gap := fun place => if place ∈ [0, 3, 4] then [' '] else []
    let ls := [⟨.code .octal ['4'], 0, 2⟩, ⟨.mark .pipe, 2, 1⟩, ⟨.word ['Q'], 3, 1⟩]
    tokenize 0 "o4|Q".toList = .ok ls ∧ Spaced gap ls ∧
      spread gap 0 "o4|Q".toList = " o4| Q ".toList ∧
      ∃ parsed parsed', parse "o4|Q".toList = .ok parsed ∧ parse " o4| Q ".toList = .ok parsed' ∧
        parsed'.expr.unplaced = parsed.expr.unplaced ∧
        parsed'.warnings.map (·.kind) = [.unknownGenerator] := by
  intro gap ls
  have htokens : tokenize 0 "o4|Q".toList = .ok ls := by
    have hok : (tokenize 0 "o4|Q".toList).toOption = some ls := by decide +kernel
    cases ht : tokenize 0 "o4|Q".toList with
    | error err =>
      rw [ht] at hok
      cases hok
    | ok ls' =>
      rw [ht] at hok
      exact congrArg Except.ok (Option.some.inj hok)
  have hspaced : Spaced gap ls := by
    refine ⟨?_, ?_⟩
    · intro place c hc
      dsimp only [gap] at hc
      split at hc
      · rw [List.mem_singleton.1 hc]
        rfl
      · cases hc
    · have hbetween : ∀ l ∈ ls, ∀ place < 4, l.span.start < place → place < l.span.stop →
          gap place = [] := by decide
      have hstop : ∀ l ∈ ls, l.span.stop ≤ 4 := by decide
      intro l hl place hlt hle
      exact hbetween l hl place (Nat.lt_of_lt_of_le hle (hstop l hl)) hlt hle
  have htext : spread gap 0 "o4|Q".toList = " o4| Q ".toList := by decide
  have hwarned : (parse "o4|Q".toList).toOption.map (·.warnings.map (·.kind)) =
      some [.unknownGenerator] := by decide +kernel
  obtain ⟨-, hiff, hsame, -⟩ := parse_with_gaps htokens hspaced
  rw [htext] at hiff hsame
  cases hp : parse "o4|Q".toList with
  | error err =>
    rw [hp] at hwarned
    cases hwarned
  | ok parsed =>
    obtain ⟨parsed', hp'⟩ := hiff.2 ⟨parsed, hp⟩
    obtain ⟨hexpr, hkinds⟩ := hsame parsed parsed' hp hp'
    rw [hp] at hwarned
    exact ⟨htokens, hspaced, htext, parsed, parsed', rfl, hp', hexpr,
      hkinds.trans (Option.some.inj hwarned)⟩

end Rhythm.Notation
