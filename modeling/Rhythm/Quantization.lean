import Rhythm.Circle
import Rhythm.Pattern

/-! Projection of a pattern onto another number of steps. An onset is an angle on the circle of
steps and goes to the nearest step of the new circle; onsets that meet there become one. -/
namespace Rhythm

inductive QuantizeError
  | targetOutOfRange (steps : Nat)
deriving DecidableEq, Repr

def QuantizeError.message : QuantizeError → String
  | .targetOutOfRange n => s!"quantize target {n} is outside 1..={maxSteps}"

structure Quantization where
  source : Pattern
  result : Pattern
  clockwise : Bool
deriving DecidableEq, Repr

/-- The step of a circle of `target` nearest to step `i` of a circle of `source`. Counter-clockwise,
angles are mirrored. -/
def project (i source target : Nat) (clockwise : Bool) : Nat :=
  let turns := if clockwise || i == 0 then i else source - i
  nearestStep turns source target

/-- A pattern that already has the length asked for stays as it is. -/
def quantize (p : Pattern) (steps : Nat) (clockwise : Bool) : Except QuantizeError Quantization :=
  if 0 < steps ∧ steps ≤ maxSteps then
    let result :=
      if steps = p.length then p
      else .ofOnsets (p.onsets.map fun i => project i p.length steps clockwise) steps
    .ok ⟨p, result, clockwise⟩
  else .error (.targetOutOfRange steps)

namespace Quantization

/-- How many onsets were lost by meeting another. -/
def conflicts (q : Quantization) : Nat := q.source.onsetCount - q.result.onsetCount

/-- The part of the onsets that is left; all of them when there were none. -/
def preserved (q : Quantization) : Float :=
  if q.source.onsetCount = 0 then 1.0
  else q.result.onsetCount.toFloat / q.source.onsetCount.toFloat

def densityChange (q : Quantization) : Float := q.result.density - q.source.density

end Quantization

end Rhythm
