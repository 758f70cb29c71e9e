import Rhythm.Notation.Fault
import Rhythm.Text.Numeral

/-! A place among the tokens of a text, and the numbers read there. -/
namespace Rhythm.Notation

structure Cursor where
  /-- The place of the last token taken. -/
  behind : Span
  ahead : List Lexeme
  /-- The place after all tokens. -/
  finish : Span
deriving DecidableEq, Repr

/-- Results that a fault in the text may prevent. -/
abbrev Fallible := Except NotationError

namespace Cursor

def size (c : Cursor) : Nat := c.ahead.length

/-- The token `i` places further. -/
def peek (c : Cursor) (i : Nat) : Option Token := c.ahead[i]?.map (·.token)

def token? (c : Cursor) : Option Token := c.ahead.head?.map (·.token)

/-- Whether a mark comes next. -/
def at? (c : Cursor) (m : Mark) : Bool := c.token? == some (.mark m)

def span (c : Cursor) : Span := (c.ahead.head?.map (·.span)).getD c.finish

/-- The place after the next token. -/
def next (c : Cursor) : Cursor :=
  match c.ahead with
  | [] => c
  | l :: ls => { c with behind := l.span, ahead := ls }

/-- The stretch from a start to the last token taken. -/
def since (c : Cursor) (start : Span) : Span := start.join c.behind

def fail {α : Type} (c : Cursor) (fault : Fault) : Fallible (α × Cursor) := .error ⟨fault, c.span⟩

def unexpected {α : Type} (c : Cursor) (what : Wanted) : Fallible (α × Cursor) :=
  c.fail (.expected what c.token?)

theorem size_next_le (c : Cursor) : c.next.size ≤ c.size := by
  unfold next size
  split <;> simp_all

theorem size_next_lt {c : Cursor} {t : Token} (h : c.token? = some t) : c.next.size < c.size := by
  unfold next size
  split <;> simp_all [token?]

theorem size_next_lt_of_at {c : Cursor} {m : Mark} (h : c.at? m = true) : c.next.size < c.size :=
  size_next_lt (t := .mark m) (by simpa [at?] using h)

end Cursor

open Text

/-- The largest integer that notation can name. -/
def maxInteger : Nat := 0x7FFFFFFFFFFFFFFF

/-- An integer, with at most a minus in front, and its place. -/
def integer (c : Cursor) : Fallible ((Int × Span) × Cursor) :=
  let negative := c.at? .minus
  let d := if negative then c.next else c
  match d.token? with
  | some (.digits ds) =>
    let span := c.span.join d.span
    let n := decimalValue ds
    if n ≤ maxInteger then .ok ((if negative then -(n : Int) else n, span), d.next)
    else .error ⟨.integerTooLarge ds, span⟩
  | _ => d.unexpected .integer

/-- An integer that is not negative, and its place. -/
def count (c : Cursor) : Fallible ((Nat × Span) × Cursor) :=
  match integer c with
  | .error e => .error e
  | .ok ((n, span), c) =>
    if n < 0 then .error ⟨.negativeCount n, span⟩ else .ok ((n.toNat, span), c)

/-- A length after a colon, if there is a colon. -/
def length? (c : Cursor) : Fallible (Option Nat × Cursor) :=
  if c.at? .colon then
    match count c.next with
    | .error e => .error e
    | .ok ((n, _), c) => .ok (some n, c)
  else .ok (none, c)

theorem integer_size {c d : Cursor} {r : Int × Span} (h : integer c = .ok (r, d)) :
    d.size < c.size := by
  simp only [integer] at h
  split at h
  · next ds hd =>
    split at h
    · simp only [Except.ok.injEq, Prod.mk.injEq] at h
      have := Cursor.size_next_lt hd
      split at this
      · have := c.size_next_le
        grind
      · grind
    · cases h
  · cases h

theorem count_size {c d : Cursor} {r : Nat × Span} (h : count c = .ok (r, d)) :
    d.size < c.size := by
  unfold count at h
  split at h
  · cases h
  · next hi =>
    split at h
    · cases h
    · cases h
      exact integer_size hi

theorem length?_size {c d : Cursor} {r : Option Nat} (h : length? c = .ok (r, d)) :
    d.size ≤ c.size := by
  unfold length? at h
  split at h
  · next hc =>
    split at h
    · cases h
    · next hn =>
      cases h
      have := count_size hn
      have := c.size_next_le
      omega
  · cases h
    exact Nat.le_refl _

end Rhythm.Notation
