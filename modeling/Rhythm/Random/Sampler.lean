import Rhythm.Random.Normal
import Rhythm.Random.Sample

/-! What random patterns are drawn with. -/
namespace Rhythm

open Rhythm.Random

/-- A way to draw positions, and a way to draw from the bell curve. -/
class Sampler where
  /-- So many numbers below a length: first the length, then how many. -/
  positions : Nat → Nat → Draw (List Nat)
  /-- A number with mean 0 and deviation 1. -/
  normal : Draw Float

/-- The sampler that runs. -/
instance Sampler.standard : Sampler where
  positions := sample
  normal := standardNormal

end Rhythm
