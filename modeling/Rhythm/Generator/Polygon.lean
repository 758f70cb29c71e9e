import Rhythm.Circle
import Rhythm.Pattern

/-! Regular polygons in the circle of steps. -/
namespace Rhythm

/-- An onset at the step nearest to each corner, and all of them `offset` steps later. -/
def polygon (sides : Nat) (offset : Int) (steps : Nat) : Pattern :=
  let n := clampSteps steps
  let corners := min sides n
  (Pattern.ofOnsets ((List.range corners).map fun i => nearestStep i corners n) n).rotate offset

end Rhythm
