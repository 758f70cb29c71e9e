import Rhythm.Generator.Indispensability

/-! The generator families that notation names by a letter. -/
namespace Rhythm.Notation

inductive Family
  | euclidean
  | barlow
  | wolrab
  | dilcue
  | polygon
  | random
deriving DecidableEq, Repr

namespace Family

def letter : Family → Char
  | .euclidean => 'E'
  | .barlow => 'B'
  | .wolrab => 'W'
  | .dilcue => 'D'
  | .polygon => 'P'
  | .random => 'R'

def ofLetter? (c : Char) : Option Family :=
  match c.toUpper with
  | 'E' => some .euclidean
  | 'B' => some .barlow
  | 'W' => some .wolrab
  | 'D' => some .dilcue
  | 'P' => some .polygon
  | 'R' => some .random
  | _ => none

/-- The family with a one-letter name, in either case. -/
def ofName? : List Char → Option Family
  | [c] => ofLetter? c
  | _ => none

/-- The most arguments a family takes. Every family needs two. -/
def maxArgs : Family → Nat
  | .barlow | .wolrab | .dilcue => 2
  | .euclidean | .polygon | .random => 3

/-- Whether the argument with an index may be negative: a rotation may, a count may not. -/
def signedArg : Family → Nat → Bool
  | .polygon, 1 | .euclidean, 2 => true
  | _, _ => false

/-- Whether the letter may stand before `>`. -/
def isTransformer : Family → Bool
  | .euclidean | .barlow | .wolrab | .dilcue => true
  | .polygon | .random => false

/-- The ranking by which the family's patterns change one step at a time, if it has one. -/
def metric? : Family → Option Metric
  | .barlow => some .barlow
  | .wolrab => some .wolrab
  | _ => none

theorem ofLetter?_letter (f : Family) : ofLetter? f.letter = some f := by cases f <;> rfl

end Family

end Rhythm.Notation
