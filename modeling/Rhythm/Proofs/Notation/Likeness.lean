import Mathlib.Data.List.Forall2
import Rhythm.Proofs.Notation.Passage
import Rhythm.Proofs.Text.LetterCase

/-! Tokens, places, faults and expressions that are alike in two texts. How far places have to agree
is left open. -/
namespace Rhythm.Notation

open Text

/-- A relation between the places of two texts. It holds of two stretches if it holds of what they
stretch between. -/
structure Alignment where
  Aligned : Span → Span → Prop
  join : ∀ {s t s' t' : Span}, Aligned s s' → Aligned t t' → Aligned (s.join t) (s'.join t')

variable {α β γ δ : Type} {A : Alignment} {R : α → β → Prop} {Q : γ → δ → Prop}
  {c c' : Cursor} {place place' : Span}

/-- The same token, up to the case of letters. -/
inductive Token.Matches : Token → Token → Prop
  | word {a b : List Char} (h : SameLetters a b) : Matches (.word a) (.word b)
  | digits (ds : List Char) : Matches (.digits ds) (.digits ds)
  | code (radix : Radix) {a b : List Char} (h : SameLetters a b) :
    Matches (.code radix a) (.code radix b)
  | morse {a b : List Char} (h : SameLetters a b) : Matches (.morse a) (.morse b)
  | mark (m : Mark) : Matches (.mark m) (.mark m)

theorem Token.Matches.refl (t : Token) : t.Matches t := by
  cases t with
  | word name => exact .word rfl
  | digits ds => exact .digits ds
  | code radix ds => exact .code radix rfl
  | morse text => exact .morse rfl
  | mark m => exact .mark m

structure Lexeme.Matches (A : Alignment) (l l' : Lexeme) : Prop where
  token : l.token.Matches l'.token
  span : A.Aligned l.span l'.span

structure Cursor.Matches (A : Alignment) (c c' : Cursor) : Prop where
  behind : A.Aligned c.behind c'.behind
  ahead : List.Forall₂ (Lexeme.Matches A) c.ahead c'.ahead
  finish : A.Aligned c.finish c'.finish

/-- Faults of one kind at places that agree. -/
structure NotationError.Matches (A : Alignment) (e e' : NotationError) : Prop where
  kind : e.kind = e'.kind
  span : A.Aligned e.span e'.span

/-- Expressions that differ at most in the places in them, and these agree. -/
inductive Expr.Matches (A : Alignment) : Expr → Expr → Prop
  | literal (p : Pattern) : Matches A (.literal p) (.literal p)
  | generator (family : Family) (args : List Int) {s s' : Span} (hs : A.Aligned s s') :
    Matches A (.generator family args s) (.generator family args s')
  | bell (steps : Nat) (seed : Option UInt64) {s s' : Span} (hs : A.Aligned s s') :
    Matches A (.bell steps seed s) (.bell steps seed s')
  | accented {a a' e e' : Expr} (ha : Matches A a a') (he : Matches A e e') :
    Matches A (.accented a e) (.accented a' e')
  | quantized {e e' : Expr} (he : Matches A e e') (steps : Nat) (clockwise : Bool) {s s' : Span}
    (hs : A.Aligned s s') :
    Matches A (.quantized e steps clockwise s) (.quantized e' steps clockwise s')
  | progressive (suffix : Suffix) {e e' : Expr} (he : Matches A e e') :
    Matches A (.progressive suffix e) (.progressive suffix e')
  | combination (how : Merge) {l l' r r' : Expr} (hl : Matches A l l') (hr : Matches A r r')
    {s s' : Span} (hs : A.Aligned s s') :
    Matches A (.combination how l r s) (.combination how l' r' s')
  | chain {ps ps' : List Expr} (hl : ps.length = ps'.length)
    (hp : ∀ (i : Nat) (p p' : Expr), ps[i]? = some p → ps'[i]? = some p' → Matches A p p')
    {s s' : Span} (hs : A.Aligned s s') : Matches A (.chain ps s) (.chain ps' s')
  | invert {e e' : Expr} (he : Matches A e e') : Matches A (.invert e) (.invert e')
  | reverse {e e' : Expr} (he : Matches A e e') : Matches A (.reverse e) (.reverse e')
  | rotate {e e' : Expr} (he : Matches A e e') (offset : Int) :
    Matches A (.rotate e offset) (.rotate e' offset)
  | scenes {ps ps' : List Expr} (hl : ps.length = ps'.length)
    (hp : ∀ (i : Nat) (p p' : Expr), ps[i]? = some p → ps'[i]? = some p' → Matches A p p') :
    Matches A (.scenes ps) (.scenes ps')

/-- Two results are related, or there are faults of one kind at places that agree. -/
def Likewise (A : Alignment) (R : α → β → Prop) : Fallible α → Fallible β → Prop
  | .ok a, .ok b => R a b
  | .error e, .error e' => e.Matches A e'
  | _, _ => False

/-- Two results are related, and so are the places after them. -/
def Onward (A : Alignment) (R : α → β → Prop) (r : α × Cursor) (r' : β × Cursor) : Prop :=
  R r.1 r'.1 ∧ r.2.Matches A r'.2

/-- The same at places that agree. -/
def SameAt (A : Alignment) (x x' : α × Span) : Prop := x.1 = x'.1 ∧ A.Aligned x.2 x'.2

/-- Either both texts are at fault, or both are read. -/
theorem Likewise.elim {x : Fallible α} {x' : Fallible β} (h : Likewise A R x x') :
    (∃ e e', x = .error e ∧ x' = .error e' ∧ e.Matches A e') ∨
      ∃ a b, x = .ok a ∧ x' = .ok b ∧ R a b := by
  cases x with
  | error e =>
    cases x' with
    | error e' => exact .inl ⟨e, e', rfl, rfl, h⟩
    | ok b => exact False.elim h
  | ok a =>
    cases x' with
    | error e' => exact False.elim h
    | ok b => exact .inr ⟨a, b, rfl, rfl, h⟩

theorem Likewise.exists_ok_iff {x : Fallible α} {x' : Fallible β} (h : Likewise A R x x') :
    (∃ b, x' = .ok b) ↔ ∃ a, x = .ok a := by
  obtain ⟨e, e', rfl, rfl, -⟩ | ⟨a, b, rfl, rfl, -⟩ := h.elim
  · exact iff_of_false nofun nofun
  · exact iff_of_true ⟨b, rfl⟩ ⟨a, rfl⟩

theorem Likewise.ok {x : Fallible α} {x' : Fallible β} (h : Likewise A R x x') {a : α} {b : β}
    (ha : x = .ok a) (hb : x' = .ok b) : R a b := by
  rw [ha, hb] at h
  exact h

theorem Likewise.error {x : Fallible α} {x' : Fallible β} (h : Likewise A R x x')
    {e e' : NotationError} (he : x = .error e) (he' : x' = .error e') : e.Matches A e' := by
  rw [he, he'] at h
  exact h

theorem Likewise.bind {x : Fallible α} {x' : Fallible β} {k : α → Fallible γ} {k' : β → Fallible δ}
    (h : Likewise A R x x') (hk : ∀ a b, x = .ok a → R a b → Likewise A Q (k a) (k' b)) :
    Likewise A Q (x >>= k) (x' >>= k') := by
  obtain ⟨e, e', rfl, rfl, he⟩ | ⟨a, b, rfl, rfl, hab⟩ := h.elim
  · exact he
  · exact hk a b rfl hab

theorem Likewise.map {x : Fallible α} {x' : Fallible β} {f : α → γ} {g : β → δ}
    (h : Likewise A R x x') (hfg : ∀ a b, R a b → Q (f a) (g b)) :
    Likewise A Q (x.map f) (x'.map g) := by
  obtain ⟨e, e', rfl, rfl, he⟩ | ⟨a, b, rfl, rfl, hab⟩ := h.elim
  · exact he
  · exact hfg a b hab

theorem Likewise.onward {x : Fallible (α × Cursor)} {x' : Fallible (β × Cursor)}
    {k : α × Cursor → Fallible γ} {k' : β × Cursor → Fallible δ}
    (h : Likewise A (Onward A R) x x')
    (hk : ∀ a b d d', x = .ok (a, d) → R a b → d.Matches A d' →
      Likewise A Q (k (a, d)) (k' (b, d'))) : Likewise A Q (x >>= k) (x' >>= k') :=
  h.bind fun r r' hx hr => hk r.1 r'.1 r.2 r'.2 hx hr.1 hr.2

section Lists

variable {S : α → β → Prop} {xs : List α} {ys : List β}

theorem forall₂_getElem? (h : List.Forall₂ S xs ys) (i : Nat) :
    (xs[i]? = none ∧ ys[i]? = none) ∨ ∃ x y, xs[i]? = some x ∧ ys[i]? = some y ∧ S x y := by
  induction h generalizing i with
  | nil => exact .inl ⟨rfl, rfl⟩
  | cons hr _ ih =>
    cases i with
    | zero => exact .inr ⟨_, _, rfl, rfl, hr⟩
    | succ i => exact ih i

theorem forall₂_find? (h : List.Forall₂ S xs ys) {p : α → Bool} {q : β → Bool}
    (hpq : ∀ x y, S x y → p x = q y) :
    (xs.find? p = none ∧ ys.find? q = none) ∨
      ∃ x y, xs.find? p = some x ∧ ys.find? q = some y ∧ S x y := by
  induction h with
  | nil => exact .inl ⟨rfl, rfl⟩
  | @cons x y xs ys hr _ ih =>
    rw [List.find?_cons, List.find?_cons, hpq x y hr]
    cases q y with
    | true => exact .inr ⟨x, y, rfl, rfl, hr⟩
    | false => exact ih

theorem forall₂_zipIdx (h : List.Forall₂ S xs ys) (k : Nat) :
    List.Forall₂ (fun x y => S x.1 y.1 ∧ x.2 = y.2) (xs.zipIdx k) (ys.zipIdx k) := by
  induction h generalizing k with
  | nil => exact .nil
  | cons hr _ ih => exact .cons ⟨hr, rfl⟩ (ih (k + 1))

theorem forall₂_isEmpty (h : List.Forall₂ S xs ys) : xs.isEmpty = ys.isEmpty := by
  cases h <;> rfl

/-- Lists that are alike are cut at the same places. -/
theorem forall₂_splitOnP (h : List.Forall₂ S xs ys) {p : α → Bool} {q : β → Bool}
    (hpq : ∀ x y, S x y → p x = q y) :
    List.Forall₂ (List.Forall₂ S) (xs.splitOnP p) (ys.splitOnP q) := by
  induction h with
  | nil => exact .cons .nil .nil
  | @cons x y xs ys hr _ ih =>
    rw [List.splitOnP_cons_eq_if_modifyHead, List.splitOnP_cons_eq_if_modifyHead, hpq x y hr]
    split
    · exact .cons .nil ih
    · revert ih
      generalize xs.splitOnP p = xss
      generalize ys.splitOnP q = yss
      rintro (_ | ⟨hxs, hxss⟩)
      · exact .nil
      · exact .cons (.cons hr hxs) hxss

theorem map_fst_of_sameAt {xs ys : List (α × Span)} (h : List.Forall₂ (SameAt A) xs ys) :
    xs.map (·.1) = ys.map (·.1) := by
  induction h with
  | nil => rfl
  | cons hr _ ih => rw [List.map_cons, List.map_cons, hr.1, ih]

end Lists

theorem Expr.Matches.of_forall₂ {es es' : List Expr}
    (h : List.Forall₂ (Expr.Matches A) es es') : es.length = es'.length ∧
      ∀ (i : Nat) (p p' : Expr), es[i]? = some p → es'[i]? = some p' → p.Matches A p' := by
  refine ⟨h.length_eq, ?_⟩
  intro i p p' hp hp'
  obtain ⟨hnone, -⟩ | ⟨q, q', hq, hq', hm⟩ := forall₂_getElem? h i
  · rw [hp] at hnone
    cases hnone
  · rw [hp, Option.some_inj] at hq
    rw [hp', Option.some_inj] at hq'
    rwa [hq, hq']

namespace Cursor.Matches

theorem next (h : c.Matches A c') : c.next.Matches A c'.next := by
  obtain ⟨behind, ahead, finish⟩ := c
  obtain ⟨behind', ahead', finish'⟩ := c'
  obtain ⟨hb, ha, hf⟩ := h
  cases ha with
  | nil => exact ⟨hb, .nil, hf⟩
  | cons hl ha => exact ⟨hl.span, ha, hf⟩

theorem span (h : c.Matches A c') : A.Aligned c.span c'.span := by
  obtain ⟨behind, ahead, finish⟩ := c
  obtain ⟨behind', ahead', finish'⟩ := c'
  obtain ⟨hb, ha, hf⟩ := h
  cases ha with
  | nil => exact hf
  | cons hl _ => exact hl.span

theorem since (h : c.Matches A c') (hp : A.Aligned place place') :
    A.Aligned (c.since place) (c'.since place') := A.join hp h.behind

theorem isEmpty (h : c.Matches A c') : c.ahead.isEmpty = c'.ahead.isEmpty :=
  forall₂_isEmpty h.ahead

/-- At a place there are tokens that match, or none. -/
theorem peek (h : c.Matches A c') (i : Nat) : (c.peek i = none ∧ c'.peek i = none) ∨
    ∃ t t', c.peek i = some t ∧ c'.peek i = some t' ∧ t.Matches t' := by
  unfold Cursor.peek
  obtain ⟨hn, hn'⟩ | ⟨l, l', hl, hl', hm⟩ := forall₂_getElem? h.ahead i
  · rw [hn, hn']
    exact .inl ⟨rfl, rfl⟩
  · rw [hl, hl']
    exact .inr ⟨_, _, rfl, rfl, hm.token⟩

theorem token? (h : c.Matches A c') : (c.token? = none ∧ c'.token? = none) ∨
    ∃ t t', c.token? = some t ∧ c'.token? = some t' ∧ t.Matches t' := by
  rw [← peek_zero, ← peek_zero]
  exact h.peek 0

theorem at? (h : c.Matches A c') (m : Mark) : c.at? m = c'.at? m := by
  unfold Cursor.at?
  obtain ⟨ht, ht'⟩ | ⟨t, t', ht, ht', hm⟩ := h.token?
  · rw [ht, ht']
  · rw [ht, ht']
    cases hm <;> rfl

theorem peek_mark_iff (h : c.Matches A c') (i : Nat) (m : Mark) :
    c.peek i = some (.mark m) ↔ c'.peek i = some (.mark m) := by
  obtain ⟨ht, ht'⟩ | ⟨t, t', ht, ht', hm⟩ := h.peek i
  · rw [ht, ht']
  · rw [ht, ht']
    cases hm <;> simp

theorem isTransformer (h : c.Matches A c') (i : Nat) : c.isTransformer i = c'.isTransformer i := by
  have hmark := h.peek_mark_iff (i + 1) .greater
  rw [Bool.eq_iff_iff, Cursor.isTransformer, Cursor.isTransformer, beq_iff_eq, beq_iff_eq, hmark]

theorem startsTerm (h : c.Matches A c') (i : Nat) : c.startsTerm i = c'.startsTerm i := by
  unfold Cursor.startsTerm
  rw [h.isTransformer i]
  obtain ⟨ht, ht'⟩ | ⟨t, t', ht, ht', hm⟩ := h.peek i
  · rw [ht, ht']
  · rw [ht, ht']
    cases hm <;> rfl

theorem offsetAhead (h : c.Matches A c') : c.offsetAhead = c'.offsetAhead := by
  unfold Cursor.offsetAhead
  simp only [h.peek_mark_iff 1 .minus]
  generalize (if c'.peek 1 = some (.mark .minus) then 2 else 1) = i
  rw [h.isTransformer (i + 1)]
  obtain ⟨ht, ht'⟩ | ⟨t, t', ht, ht', hm⟩ := h.peek i
  · rw [ht, ht']
  · rw [ht, ht']
    obtain ⟨hu, hu'⟩ | ⟨u, u', hu, hu', hm'⟩ := h.peek (i + 1)
    · rw [hu, hu']
      cases hm <;> rfl
    · rw [hu, hu']
      cases hm <;> cases hm' <;> rfl

theorem mergeSign? (h : c.Matches A c') : c.mergeSign? = c'.mergeSign? := by
  unfold Cursor.mergeSign?
  rw [h.at? .minus, h.at? .plus, h.offsetAhead]

theorem operator? (h : c.Matches A c') : c.operator? = c'.operator? := by
  unfold Cursor.operator?
  rw [h.startsTerm 1]
  obtain ⟨ht, ht'⟩ | ⟨t, t', ht, ht', hm⟩ := h.token?
  · rw [ht, ht']
  · rw [ht, ht']
    cases hm with
    | word hs =>
      dsimp only
      rw [hs.sameWord_eq, hs.sameWord_eq, hs.sameWord_eq]
    | mark m => cases m <;> rfl
    | _ => rfl

theorem atBell (h : c.Matches A c') : c.atBell = c'.atBell := by
  unfold Cursor.atBell
  obtain ⟨ht, ht'⟩ | ⟨t, t', ht, ht', hm⟩ := h.token?
  · rw [ht, ht']
  · rw [ht, ht']
    cases hm with
    | word hs => exact hs.sameWord_eq ['r']
    | _ => rfl

theorem fail (h : c.Matches A c') {f f' : Fault} (hf : f.kind = f'.kind) :
    Likewise A (Onward A R) (c.fail f) (c'.fail f') := ⟨hf, h.span⟩

theorem unexpected (h : c.Matches A c') (what : Wanted) :
    Likewise A (Onward A R) (c.unexpected what) (c'.unexpected what) := h.fail rfl

theorem close (h : c.Matches A c') (hp : A.Aligned place place') (opening closing : Mark)
    (what : Wanted) : Likewise A (Cursor.Matches A) (c.close opening place closing what)
      (c'.close opening place' closing what) := by
  unfold Cursor.close
  rw [h.at? closing, h.isEmpty]
  split
  · exact h.next
  split
  · exact ⟨rfl, hp⟩
  · exact ⟨rfl, h.span⟩

theorem afterBell (h : c.Matches A c') :
    Likewise A (Cursor.Matches A) c.afterBell c'.afterBell := by
  unfold Cursor.afterBell
  rw [h.at? .rightParen, h.at? .comma]
  split
  · exact h
  split
  · exact h.next
  · exact ⟨rfl, h.span⟩

end Cursor.Matches

end Rhythm.Notation
