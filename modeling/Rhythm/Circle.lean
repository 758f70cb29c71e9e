/-! The circle of steps: points between steps, and the steps nearest to them. -/
namespace Rhythm

/-- The integer nearest to a quotient; a half goes up. -/
def roundHalfUp (num den : Nat) : Nat := (2 * num + den) / (2 * den)

/-- Where point `i` of `source` points around the circle falls among `target` steps. -/
def nearestStep (i source target : Nat) : Nat := roundHalfUp (i * target) source % target

end Rhythm
