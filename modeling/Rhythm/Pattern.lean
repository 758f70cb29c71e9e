import Rhythm.Text.Blank

/-! Patterns: between 1 and 128 steps, each an onset or a rest. -/
namespace Rhythm

/-- The most steps a pattern can have. -/
def maxSteps : Nat := 128

/-- The nearest length a pattern can have. -/
def clampSteps (n : Nat) : Nat := max 1 (min n maxSteps)

inductive PatternError
  | length (n : Nat)
  | invalidDigit (c : Char)
  | noDigits
  | overflow (digits : List Char)
  | combinedTooLong (n : Nat)
deriving DecidableEq, Repr

def PatternError.message : PatternError → String
  | .length n => s!"pattern length {n} is outside 1..={maxSteps}"
  | .invalidDigit c => s!"invalid digit '{c}'"
  | .noDigits => "no digits to decode"
  | .overflow digits =>
    let text := String.ofList digits
    s!"decimal value {text} does not fit in {maxSteps} steps"
  | .combinedTooLong n => s!"combined length {n} exceeds {maxSteps} steps"

/-- The steps in order, `true` for an onset. -/
structure Pattern where
  steps : List Bool
  length_pos : 0 < steps.length
  length_le : steps.length ≤ maxSteps
deriving DecidableEq, Repr

/-- How two patterns merge, position by position. -/
inductive Merge
  | add
  | subtract
deriving DecidableEq, Repr

def Merge.apply : Merge → Bool → Bool → Bool
  | .add, a, b => a || b
  | .subtract, a, b => a && !b

theorem clampSteps_pos (n : Nat) : 0 < clampSteps n := by simp only [clampSteps]; omega

theorem clampSteps_le (n : Nat) : clampSteps n ≤ maxSteps := by
  simp only [clampSteps, maxSteps]; omega

theorem clampSteps_of_le {n : Nat} (hp : 0 < n) (hn : n ≤ maxSteps) : clampSteps n = n := by
  simp only [clampSteps]; omega

namespace Pattern

@[ext] theorem ext {p q : Pattern} (h : p.steps = q.steps) : p = q := by
  cases p; cases q; simp_all

def length (p : Pattern) : Nat := p.steps.length

/-- Whether step `i` is an onset. Beyond the last step there are none. -/
def isOnset (p : Pattern) (i : Nat) : Bool := p.steps[i]?.getD false

/-- Step `i` of the pattern repeated without end. -/
def cyclic (p : Pattern) (i : Nat) : Bool := p.isOnset (i % p.length)

def onsetCount (p : Pattern) : Nat := p.steps.count true

def onsets (p : Pattern) : List Nat := (List.range p.length).filter p.isOnset

/-- Onsets per step. -/
def density (p : Pattern) : Float := p.onsetCount.toFloat / p.length.toFloat

/-- The pattern of given steps, if there are neither too few nor too many. -/
def ofSteps (steps : List Bool) : Except PatternError Pattern :=
  if h : 0 < steps.length ∧ steps.length ≤ maxSteps then .ok ⟨steps, h.1, h.2⟩
  else .error (.length steps.length)

/-- The pattern with step `i` given by `f i`; the length is clamped. -/
def tabulate (n : Nat) (f : Nat → Bool) : Pattern where
  steps := (List.range (clampSteps n)).map f
  length_pos := by simpa using clampSteps_pos n
  length_le := by simpa using clampSteps_le n

def rests (n : Nat) : Pattern := tabulate n fun _ => false

def full (n : Nat) : Pattern := tabulate n fun _ => true

/-- Onsets at the given positions; those outside the pattern are dropped. -/
def ofOnsets (positions : List Nat) (n : Nat) : Pattern := tabulate n fun i => positions.contains i

/-- Every step `k` places later, around the end; a negative `k` moves them earlier. -/
def rotate (p : Pattern) (k : Int) : Pattern :=
  tabulate p.length fun i => p.isOnset (((i : Int) - k) % p.length).toNat

/-- Rotated so that the first onset is on step 0. -/
def alignToDownbeat (p : Pattern) : Pattern :=
  match p.steps.findIdx? id with
  | some first => p.rotate (-(first : Int))
  | none => p

def invert (p : Pattern) : Pattern where
  steps := p.steps.map (!·)
  length_pos := by simpa using p.length_pos
  length_le := by simpa using p.length_le

def reverse (p : Pattern) : Pattern where
  steps := p.steps.reverse
  length_pos := by simpa using p.length_pos
  length_le := by simpa using p.length_le

/-- Cut, or filled up with rests, to a length, which is clamped. -/
def resize (p : Pattern) (n : Nat) : Pattern := tabulate n p.isOnset

/-- Repeated up to a length, which is clamped. -/
def extend (p : Pattern) (n : Nat) : Pattern := tabulate n p.cyclic

/-- One pattern after the other. -/
def append (p q : Pattern) : Except PatternError Pattern :=
  if h : p.length + q.length ≤ maxSteps then
    .ok ⟨p.steps ++ q.steps, by simpa using Nat.add_pos_left p.length_pos _,
      by simpa [length] using h⟩
  else .error (.combinedTooLong (p.length + q.length))

/-- Both patterns repeated to their least common length and merged step by step. -/
def combine (how : Merge) (p q : Pattern) : Except PatternError Pattern :=
  let n := p.length.lcm q.length
  if n ≤ maxSteps then .ok (tabulate n fun i => how.apply (p.cyclic i) (q.cyclic i))
  else .error (.combinedTooLong n)

/-- The steps as text: `1` for an onset and `0` for a rest. -/
def bits (p : Pattern) : List Char := p.steps.map fun s => if s then '1' else '0'

/-- The inverse of `bits` on one character. -/
def ofBit (c : Char) : Except PatternError Bool :=
  if c = '1' then .ok true else if c = '0' then .ok false else .error (.invalidDigit c)

/-- Reads `bits`. The error is that of the first character that is no bit, else that of the
length. -/
def ofBits (cs : List Char) : Except PatternError Pattern := do
  let steps ← cs.mapM ofBit
  ofSteps steps

/-- Reads `bits` between blanks. -/
def ofText (text : String) : Except PatternError Pattern := ofBits (Text.trim text.toList)

instance : ToString Pattern := ⟨fun p => String.ofList p.bits⟩

theorem length_pos' (p : Pattern) : 0 < p.length := p.length_pos

theorem length_le' (p : Pattern) : p.length ≤ maxSteps := p.length_le

@[simp] theorem clampSteps_length (p : Pattern) : clampSteps p.length = p.length :=
  clampSteps_of_le p.length_pos p.length_le

@[simp] theorem length_tabulate (n : Nat) (f : Nat → Bool) :
    (tabulate n f).length = clampSteps n := by
  simp [tabulate, length]

@[simp] theorem isOnset_tabulate (n : Nat) (f : Nat → Bool) (i : Nat) :
    (tabulate n f).isOnset i = (decide (i < clampSteps n) && f i) := by
  simp only [isOnset, tabulate, List.getElem?_map]
  by_cases h : i < clampSteps n <;> simp [h]

theorem isOnset_of_length_le {p : Pattern} {i : Nat} (h : p.length ≤ i) :
    p.isOnset i = false := by
  simp [isOnset, List.getElem?_eq_none h]

theorem ext_isOnset {p q : Pattern} (hl : p.length = q.length)
    (h : ∀ i, i < p.length → p.isOnset i = q.isOnset i) : p = q := by
  apply ext
  apply List.ext_getElem hl
  intro i hp hq
  have := h i hp
  simpa [isOnset, List.getElem?_eq_getElem hp, List.getElem?_eq_getElem hq] using this

end Pattern

end Rhythm
