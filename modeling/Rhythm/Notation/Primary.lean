import Rhythm.Generator.Morse
import Rhythm.Generator.Preset
import Rhythm.Notation.Cursor
import Rhythm.Notation.Expr

/-! The smallest patterns of the notation.

    primary = digits (':' int)? | numeral (':' int)? | 'M:' morse | '[' ints ']' (':' int)?
            | letter '(' args ')' | preset

Digits that are all 0 or 1 are a binary literal, other digits a decimal numeral. -/
namespace Rhythm.Notation

namespace Cursor

/-- Whether a word `i` places further stands before `>`. It is a transformer there and no pattern. -/
def isTransformer (c : Cursor) (i : Nat) : Bool := c.peek (i + 1) == some (.mark .greater)

/-- Whether a term can start `i` places further. -/
def startsTerm (c : Cursor) (i : Nat) : Bool :=
  match c.peek i with
  | some (.digits _) | some (.code ..) | some (.morse _) => true
  | some (.mark .leftBracket) | some (.mark .tilde) => true
  | some (.word _) => !c.isTransformer i
  | _ => false

/-- The token that has to close what a mark opened. -/
def close (c : Cursor) (opening : Mark) (place : Span) (closing : Mark) (what : Wanted) :
    Fallible Cursor :=
  if c.at? closing then .ok c.next
  else if c.ahead.isEmpty then .error ⟨.unterminated opening, place⟩
  else .error ⟨.expected what c.token?, c.span⟩

end Cursor

/-- A pattern that was made at a place. -/
def placed {α : Type} (place : Span) : Except PatternError α → Fallible α
  | .ok a => .ok a
  | .error e => .error ⟨.pattern e, place⟩

/-- Integers with commas between them, at least one. -/
def integers (place : Span) (c : Cursor) : Fallible (List (Int × Span) × Cursor) :=
  if c.ahead.isEmpty then .error ⟨.unterminated .leftParen, place⟩
  else match _h : integer c with
    | .error e => .error e
    | .ok (n, d) =>
      if d.at? .comma then
        match integers place d.next with
        | .error e => .error e
        | .ok (ns, d) => .ok (n :: ns, d)
      else .ok ([n], d)
termination_by c.size
decreasing_by exact Nat.lt_of_le_of_lt d.size_next_le (integer_size _h)

/-- Arguments up to and with the closing parenthesis. -/
def arguments (place : Span) (c : Cursor) : Fallible (List (Int × Span) × Cursor) :=
  if c.at? .rightParen then .ok ([], c.next)
  else do
    let (args, c) ← integers place c
    let c ← c.close .leftParen place .rightParen .commaOrParen
    return (args, c)

/-- The call of a family with arguments of its kind. -/
def call (family : Family) (args : List (Int × Span)) (place : Span) : Fallible Expr :=
  let values := args.map (·.1)
  if values.length < 2 ∨ family.maxArgs < values.length then
    .error ⟨.arity family values.length, place⟩
  else match args.zipIdx.find? fun a => !family.signedArg a.2 && a.1.1 < 0 with
    | some ((n, span), _) => .error ⟨.negativeCount n, span⟩
    | none =>
      let onsets := values[0]?.getD 0
      let steps? := if family = .polygon then values[2]? else values[1]?
      match steps? with
      | none => .ok (.generator family values place)
      | some steps =>
        if steps < onsets then .error ⟨.onsetsExceedSteps family onsets steps, place⟩
        else .ok (.generator family values place)

/-- The call for a random number of onsets: a length, and at most a seed. -/
def bellCall (args : List (Int × Span)) (place : Span) : Fallible Expr :=
  match args.find? fun a => a.1 < 0, args.map (·.1) with
  | none, [steps] => .ok (.bell steps.toNat none place)
  | none, [steps, seed] => .ok (.bell steps.toNat (some (.ofInt seed)) place)
  | some (n, span), [_] | some (n, span), [_, _] => .error ⟨.negativeCount n, span⟩
  | _, values => .error ⟨.bellArity values.length, place⟩

namespace Cursor

/-- Whether the argument `r` stands at a place, which asks for a random number of onsets. -/
def atBell (c : Cursor) : Bool :=
  match c.token? with
  | some (.word name) => Text.sameWord name ['r']
  | _ => false

/-- Where the arguments after `r` begin. -/
def afterBell (c : Cursor) : Fallible Cursor :=
  if c.at? .rightParen then .ok c
  else if c.at? .comma then .ok c.next
  else .error ⟨.expected .comma c.token?, c.span⟩

end Cursor

/-- What follows the name of a family, from the opening parenthesis on. -/
def generator (family : Family) (name : Span) (c : Cursor) : Fallible (Expr × Cursor) :=
  if family = .random ∧ c.next.atBell then do
    let d ← c.next.next.afterBell
    let (args, d) ← arguments c.span d
    let e ← bellCall args (d.since name)
    return (e, d)
  else do
    let (args, d) ← arguments c.span c.next
    let e ← call family args (d.since name)
    return (e, d)

/-- Counts with commas between them, up to and with the closing bracket. A comma may stand before
the bracket. -/
def positions (place : Span) (c : Cursor) : Fallible (List (Nat × Span) × Cursor) :=
  if c.at? .rightBracket then .ok ([], c.next)
  else if c.ahead.isEmpty then .error ⟨.unterminated .leftBracket, place⟩
  else match _h : count c with
    | .error e => .error e
    | .ok (n, d) =>
      if d.at? .comma then
        match positions place d.next with
        | .error e => .error e
        | .ok (ns, d) => .ok (n :: ns, d)
      else if d.at? .rightBracket then .ok ([n], d.next)
      else d.unexpected .commaOrBracket
termination_by c.size
decreasing_by exact Nat.lt_of_le_of_lt d.size_next_le (count_size _h)

/-- A pattern given by the positions of its onsets. It is long enough for all of them and has at
least eight steps, unless a length is given. -/
def onsetList (c : Cursor) : Fallible (Expr × Cursor) := do
  let (entries, c) ← positions c.span c.next
  let least := (entries.map (·.1 + 1)).foldl max 8
  let (steps, c) ← length? c
  let n := clampSteps (steps.getD least)
  match entries.find? fun entry => n ≤ entry.1 with
  | some (position, span) => .error ⟨.onsetOutside position n, span⟩
  | none => return (.literal (.ofOnsets (entries.map (·.1)) n), c)

/-- A pattern in digits, of a length that may follow. -/
def numeral (radix : Radix) (ds : List Char) (c : Cursor) : Fallible (Expr × Cursor) := do
  let place := c.span
  let (steps, c) ← length? c.next
  let p ← placed place (decode radix ds steps)
  return (.literal p, c)

/-- A pattern in bits, cut or filled up to a length that may follow. -/
def binary (ds : List Char) (c : Cursor) : Fallible (Expr × Cursor) := do
  let p ← placed c.span (Pattern.ofBits ds)
  let (steps, c) ← length? c.next
  return (.literal ((steps.map p.resize).getD p), c)

/-- A family with its arguments, or a preset. -/
def named (name : List Char) (c : Cursor) : Fallible (Expr × Cursor) :=
  if c.next.at? .leftParen then
    match Family.ofName? name with
    | some family => generator family c.span c.next
    | none => c.fail (.unknownGenerator name)
  else match preset? name with
    | some p => .ok (.literal p, c.next)
    | none => c.fail (.unknownPattern name)

def primary (c : Cursor) : Fallible (Expr × Cursor) :=
  match c.token? with
  | some (.digits ds) =>
    if ds.all fun d => d = '0' ∨ d = '1' then binary ds c else numeral .decimal ds c
  | some (.code radix ds) => numeral radix ds c
  | some (.morse text) =>
    match placed c.span (morse text) with
    | .ok p => .ok (.literal p, c.next)
    | .error e => .error e
  | some (.mark .leftBracket) => onsetList c
  | some (.word name) => named name c
  | none => c.fail .missingPattern
  | some (.mark _) => c.unexpected .pattern

theorem integers_size {place : Span} {c d : Cursor} {ns : List (Int × Span)}
    (h : integers place c = .ok (ns, d)) : d.size < c.size := by
  fun_induction integers place c generalizing ns d with
  | case1 => cases h
  | case2 => cases h
  | case3 => cases h
  | case4 c _ n e he _ ns' d' hr ih =>
    cases h
    have := ih hr
    have := integer_size he
    have := e.size_next_le
    omega
  | case5 c _ n e he =>
    cases h
    exact integer_size he

theorem positions_size {place : Span} {c d : Cursor} {ns : List (Nat × Span)}
    (h : positions place c = .ok (ns, d)) : d.size < c.size := by
  fun_induction positions place c generalizing ns d with
  | case1 c hc =>
    cases h
    exact Cursor.size_next_lt_of_at hc
  | case2 => cases h
  | case3 => cases h
  | case4 => cases h
  | case5 c _ _ n e he _ ns' d' hr ih =>
    cases h
    have := ih hr
    have := count_size he
    have := e.size_next_le
    omega
  | case6 c _ _ n e he =>
    cases h
    have := count_size he
    have := e.size_next_le
    omega
  | case7 => cases h

theorem bind_eq_ok {α β : Type} {x : Fallible α} {f : α → Fallible β} {b : β} :
    (x >>= f) = .ok b ↔ ∃ a, x = .ok a ∧ f a = .ok b := by
  cases x <;> simp [bind, Except.bind]

theorem close_size {c d : Cursor} {m k : Mark} {s : Span} {w : Wanted}
    (h : c.close m s k w = .ok d) : d.size < c.size := by
  unfold Cursor.close at h
  split at h
  · next hc =>
    cases h
    exact Cursor.size_next_lt_of_at hc
  · split at h <;> cases h

theorem arguments_size {place : Span} {c d : Cursor} {ns : List (Int × Span)}
    (h : arguments place c = .ok (ns, d)) : d.size < c.size := by
  unfold arguments at h
  split at h
  · next hc =>
    cases h
    exact Cursor.size_next_lt_of_at hc
  · simp only [bind_eq_ok, pure, Except.pure, Except.ok.injEq, Prod.mk.injEq] at h
    obtain ⟨⟨as, e⟩, he, f, hf, -, rfl⟩ := h
    exact Nat.lt_trans (close_size hf) (integers_size he)

theorem afterBell_size {c d : Cursor} (h : c.afterBell = .ok d) : d.size ≤ c.size := by
  unfold Cursor.afterBell at h
  split at h
  · cases h
    exact Nat.le_refl _
  · split at h <;> cases h
    exact c.size_next_le

theorem generator_size {family : Family} {name : Span} {c d : Cursor} {e : Expr}
    (h : generator family name c = .ok (e, d)) : d.size < c.size := by
  have hn := c.size_next_le
  have hm := c.next.size_next_le
  unfold generator at h
  split at h
  · simp only [bind_eq_ok, pure, Except.pure, Except.ok.injEq, Prod.mk.injEq] at h
    obtain ⟨f, hf, ⟨as, g⟩, hg, e', -, -, rfl⟩ := h
    have := afterBell_size hf
    have := arguments_size hg
    dsimp only at *
    omega
  · simp only [bind_eq_ok, pure, Except.pure, Except.ok.injEq, Prod.mk.injEq] at h
    obtain ⟨⟨as, g⟩, hg, e', -, -, rfl⟩ := h
    have := arguments_size hg
    dsimp only at *
    omega

theorem onsetList_size {c d : Cursor} {e : Expr} (h : onsetList c = .ok (e, d)) :
    d.size < c.size := by
  simp only [onsetList, bind_eq_ok] at h
  obtain ⟨⟨es, f⟩, hf, ⟨n, g⟩, hg, h⟩ := h
  have := positions_size hf
  have := length?_size hg
  have := c.size_next_le
  split at h
  · cases h
  · cases h
    dsimp only at *
    omega

theorem numeral_size {radix : Radix} {ds : List Char} {c d : Cursor} {e : Expr}
    (hc : c.next.size < c.size) (h : numeral radix ds c = .ok (e, d)) : d.size < c.size := by
  simp only [numeral, bind_eq_ok, pure, Except.pure, Except.ok.injEq, Prod.mk.injEq] at h
  obtain ⟨⟨n, f⟩, hf, p, -, -, rfl⟩ := h
  have := length?_size hf
  dsimp only at *
  omega

theorem binary_size {ds : List Char} {c d : Cursor} {e : Expr}
    (hc : c.next.size < c.size) (h : binary ds c = .ok (e, d)) : d.size < c.size := by
  simp only [binary, bind_eq_ok, pure, Except.pure, Except.ok.injEq, Prod.mk.injEq] at h
  obtain ⟨p, -, ⟨n, f⟩, hf, -, rfl⟩ := h
  have := length?_size hf
  dsimp only at *
  omega

theorem named_size {name : List Char} {c d : Cursor} {e : Expr}
    (hc : c.next.size < c.size) (h : named name c = .ok (e, d)) : d.size < c.size := by
  unfold named at h
  split at h
  · split at h
    · have := generator_size h
      omega
    · cases h
  · split at h
    · cases h
      exact hc
    · cases h

theorem primary_size {c d : Cursor} {e : Expr} (h : primary c = .ok (e, d)) :
    d.size < c.size := by
  unfold primary at h
  split at h
  · next ht =>
    split at h
    · exact binary_size (Cursor.size_next_lt ht) h
    · exact numeral_size (Cursor.size_next_lt ht) h
  · next ht => exact numeral_size (Cursor.size_next_lt ht) h
  · next ht =>
    split at h
    · cases h
      exact Cursor.size_next_lt ht
    · cases h
  · exact onsetList_size h
  · next ht => exact named_size (Cursor.size_next_lt ht) h
  · cases h
  · cases h

end Rhythm.Notation
