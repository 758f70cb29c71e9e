import Rhythm.Notation.Lexer
import Rhythm.Notation.Primary

/-! Reading expressions from tokens.

    segment = accent? body
    accent  = '{' term '}'
    body    = chain tail*
    chain   = combo combo*
    combo   = term (('+' | '-') term)*
    tail    = ';' '-'? int | letter? '>' int | '*' int | ('+' | '%') '-'? int | '@' '-'? int
    term    = ('~' | 'inv' | 'comp' | 'rev') term | primary

A plus belongs to a combo unless it can only be a tail. -/
namespace Rhythm.Notation

namespace Cursor

/-- Whether the plus at a place, the integer after it and what follows that can only be a tail. -/
def offsetAhead (c : Cursor) : Bool :=
  let i := if c.peek 1 = some (.mark .minus) then 2 else 1
  match c.peek i, c.peek (i + 1) with
  | some (.digits _), none => true
  | some (.digits _), some (.mark m) => m ∈ [.semicolon, .greater, .star, .at, .percent, .rightBrace]
  | some (.digits _), some (.word _) => c.isTransformer (i + 1)
  | _, _ => false

/-- The sign of a combination, if one goes on here. -/
def mergeSign? (c : Cursor) : Option Merge :=
  if c.at? .minus then some .subtract
  else if c.at? .plus && !c.offsetAhead then some .add
  else none

/-- The operator in front of a term, if there is one. A word is one only before a term. -/
def operator? (c : Cursor) : Option (Expr → Expr) :=
  match c.token? with
  | some (.mark .tilde) => some .invert
  | some (.word name) =>
    if !c.startsTerm 1 then none
    else if Text.sameWord name "rev".toList then some .reverse
    else if Text.sameWord name "inv".toList || Text.sameWord name "comp".toList then some .invert
    else none
  | _ => none

end Cursor

theorem operator?_size {c : Cursor} {f : Expr → Expr} (h : c.operator? = some f) :
    c.next.size < c.size := by
  unfold Cursor.operator? at h
  split at h
  · next ht => exact Cursor.size_next_lt ht
  · next ht => exact Cursor.size_next_lt ht
  · cases h

def term (c : Cursor) : Fallible (Expr × Cursor) :=
  match _h : c.operator? with
  | none => primary c
  | some f =>
    match term c.next with
    | .error e => .error e
    | .ok (e, d) => .ok (f e, d)
termination_by c.size
decreasing_by exact operator?_size _h

theorem term_size {c d : Cursor} {e : Expr} (h : term c = .ok (e, d)) : d.size < c.size := by
  fun_induction term c generalizing e d with
  | case1 => exact primary_size h
  | case2 => cases h
  | case3 c f hf e' d' hr ih =>
    cases h
    have := ih hr
    have := operator?_size hf
    omega

theorem mergeSign?_size {c : Cursor} {how : Merge} (h : c.mergeSign? = some how) :
    c.next.size < c.size := by
  unfold Cursor.mergeSign? at h
  split at h
  · next hc => exact Cursor.size_next_lt_of_at hc
  · split at h
    · next hc => exact Cursor.size_next_lt_of_at (Bool.and_eq_true_iff.1 hc).1
    · cases h

/-- What goes on a combination that began at a place. -/
def merges (place : Span) (left : Expr) (c : Cursor) : Fallible (Expr × Cursor) :=
  match _h : c.mergeSign? with
  | none => .ok (left, c)
  | some how =>
    match _ht : term c.next with
    | .error e => .error e
    | .ok (right, d) => merges place (.combination how left right (d.since place)) d
termination_by c.size
decreasing_by exact Nat.lt_trans (term_size _ht) (mergeSign?_size _h)

def combo (c : Cursor) : Fallible (Expr × Cursor) :=
  match term c with
  | .error e => .error e
  | .ok (left, d) => merges c.span left d

theorem merges_size {place : Span} {left e : Expr} {c d : Cursor}
    (h : merges place left c = .ok (e, d)) : d.size ≤ c.size := by
  fun_induction merges place left c generalizing e d with
  | case1 =>
    cases h
    exact Nat.le_refl _
  | case2 => cases h
  | case3 _ c how hs right f ht ih =>
    have := ih h
    have := term_size ht
    have := mergeSign?_size hs
    omega

theorem combo_size {c d : Cursor} {e : Expr} (h : combo c = .ok (e, d)) : d.size < c.size := by
  unfold combo at h
  split at h
  · cases h
  · next ht => exact Nat.lt_of_le_of_lt (merges_size h) (term_size ht)

/-- The combos from a place on. -/
def combos (c : Cursor) : Fallible (List Expr × Cursor) :=
  if c.startsTerm 0 then
    match _h : combo c with
    | .error e => .error e
    | .ok (e, d) =>
      match combos d with
      | .error e => .error e
      | .ok (es, d) => .ok (e :: es, d)
  else .ok ([], c)
termination_by c.size
decreasing_by exact combo_size _h

/-- Patterns side by side are strung together. -/
def chain (c : Cursor) : Fallible (Expr × Cursor) := do
  let (first, d) ← combo c
  let (others, d) ← combos d
  return (if others.isEmpty then first else .chain (first :: others) (d.since c.span), d)

/-- What may follow a chain. -/
inductive Tail
  | quantize (steps : Nat) (clockwise : Bool)
  | rotate (offset : Int)
  | evolve (suffix : Suffix)

/-- The target of a transformation, which stands after `>`. -/
def transform (family : Option Family) (c : Cursor) : Fallible (Option Tail × Cursor) := do
  let ((target, _), c) ← count c
  return (some (.evolve (.transform target family)), c)

/-- The next tail, if there is one. -/
def tail? (c : Cursor) : Fallible (Option Tail × Cursor) :=
  match c.token? with
  | some (.mark .semicolon) => do
    let clockwise := !c.next.at? .minus
    let ((steps, place), d) ← count (if clockwise then c.next else c.next.next)
    if steps = 0 ∨ maxSteps < steps then .error ⟨.quantize (.targetOutOfRange steps), place⟩
    else return (some (.quantize steps clockwise), d)
  | some (.mark .at) => do
    let ((offset, _), d) ← integer c.next
    return (some (.rotate offset), d)
  | some (.mark .greater) => transform none c.next
  | some (.word name) =>
    if !c.isTransformer 0 then .ok (none, c)
    else match Family.ofName? name with
      | some family =>
        if family.isTransformer then transform (some family) c.next.next
        else c.fail (.unknownTransformer name)
      | none => c.fail (.unknownTransformer name)
  | some (.mark .star) => do
    let ((block, _), d) ← count c.next
    return (some (.evolve (.lengthen block)), d)
  | some (.mark .plus) | some (.mark .percent) => do
    let ((step, _), d) ← integer c.next
    return (some (.evolve (.offset step)), d)
  | _ => .ok (none, c)

theorem transform_size {family : Option Family} {c d : Cursor} {t : Option Tail}
    (h : transform family c = .ok (t, d)) : d.size < c.size := by
  simp only [transform, bind_eq_ok, pure, Except.pure, Except.ok.injEq, Prod.mk.injEq] at h
  obtain ⟨⟨⟨n, s⟩, e⟩, he, -, rfl⟩ := h
  exact count_size he

theorem tail?_size {c d : Cursor} {t : Tail} (h : tail? c = .ok (some t, d)) :
    d.size < c.size := by
  have hn := c.size_next_le
  have hm := c.next.size_next_le
  unfold tail? at h
  split at h
  · simp only [bind_eq_ok] at h
    obtain ⟨⟨⟨n, s⟩, e⟩, he, h⟩ := h
    have := count_size he
    split at h
    · cases h
    · cases h
      dsimp only at *
      split at this <;> omega
  · simp only [bind_eq_ok, pure, Except.pure, Except.ok.injEq, Prod.mk.injEq] at h
    obtain ⟨⟨⟨n, s⟩, e⟩, he, -, rfl⟩ := h
    have := integer_size he
    dsimp only at *
    omega
  · have := transform_size h
    omega
  · split at h
    · cases h
    · split at h
      · split at h
        · have := transform_size h
          omega
        · cases h
      · cases h
  · simp only [bind_eq_ok, pure, Except.pure, Except.ok.injEq, Prod.mk.injEq] at h
    obtain ⟨⟨⟨n, s⟩, e⟩, he, -, rfl⟩ := h
    have := count_size he
    dsimp only at *
    omega
  · simp only [bind_eq_ok, pure, Except.pure, Except.ok.injEq, Prod.mk.injEq] at h
    obtain ⟨⟨⟨n, s⟩, e⟩, he, -, rfl⟩ := h
    have := integer_size he
    dsimp only at *
    omega
  · simp only [bind_eq_ok, pure, Except.pure, Except.ok.injEq, Prod.mk.injEq] at h
    obtain ⟨⟨⟨n, s⟩, e⟩, he, -, rfl⟩ := h
    have := integer_size he
    dsimp only at *
    omega
  · cases h

/-- The tails of a body that began at `place`. Only one of them may be progressive; where it stands
is `first?`. -/
def tails (place : Span) (first? : Option Span) (body : Expr) (c : Cursor) :
    Fallible (Expr × Cursor) :=
  match _h : tail? c with
  | .error e => .error e
  | .ok (none, _) => .ok (body, c)
  | .ok (some (.quantize steps clockwise), d) =>
    tails place first? (.quantized body steps clockwise (d.since place)) d
  | .ok (some (.rotate offset), d) => tails place first? (.rotate body offset) d
  | .ok (some (.evolve suffix), d) =>
    match first? with
    | some first => c.fail (.secondProgressive first)
    | none => tails place (some c.span) (.progressive suffix body) d
termination_by c.size
decreasing_by all_goals exact tail?_size _h

def body (c : Cursor) : Fallible (Expr × Cursor) := do
  let (e, d) ← chain c
  tails c.span none e d

/-- The term between braces. -/
def accent (c : Cursor) : Fallible (Expr × Cursor) :=
  let place := c.span
  let c := c.next
  if c.at? .rightBrace then .error ⟨.emptyAccent, place.join c.span⟩
  else if c.ahead.isEmpty then .error ⟨.unterminated .leftBrace, place⟩
  else do
    let (e, d) ← term c
    let d ← d.close .leftBrace place .rightBrace .closingBrace
    return (e, d)

/-- All tokens as one expression. -/
def segment (c : Cursor) : Fallible Expr :=
  if c.ahead.isEmpty then .error ⟨.emptyPattern, c.span⟩
  else do
    let (accent?, d) ← if c.at? .leftBrace then (accent c).map fun r => (some r.1, r.2)
      else .ok (none, c)
    let (e, d) ← body d
    if d.ahead.isEmpty then return (accent?.map (.accented · e)).getD e
    else .error ⟨.expected .endOfPattern d.token?, d.span⟩

/-- The start of a text whose first character is at `place` and whose tokens are known. -/
def Cursor.start (place : Nat) (text : List Char) (tokens : List Lexeme) : Cursor :=
  ⟨⟨place, 0⟩, tokens, ⟨place + text.length, 0⟩⟩

/-- A text without scenes, whose first character is at `place`. -/
def parseSegment (place : Nat) (text : List Char) : Fallible Expr := do
  let tokens ← tokenize place text
  segment (.start place text tokens)

def parseExpr (text : List Char) : Fallible Expr := parseSegment 0 text

end Rhythm.Notation
