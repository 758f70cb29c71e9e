/-! The generator PCG-XSH-RR: a linear congruential state of 64 bits, permuted to words of 32. -/
namespace Rhythm.Random

structure Pcg32 where
  state : UInt64
  increment : UInt64
deriving DecidableEq, Repr

/-- Computations that draw from a generator. -/
abbrev Draw := StateM Pcg32

namespace Pcg32

def multiplier : UInt64 := 6364136223846793005

/-- The number of draws after which the state comes back, for every odd increment. -/
def period : Nat := 0x10000000000000000

def next (g : Pcg32) : Pcg32 := { g with state := g.state * multiplier + g.increment }

def rotateRight (x k : UInt32) : UInt32 := (x >>> k) ||| (x <<< ((32 - k) &&& 31))

/-- The word a state shows. -/
def output (s : UInt64) : UInt32 :=
  rotateRight (((s >>> 18) ^^^ s) >>> 27).toUInt32 (s >>> 59).toUInt32

/-- Four words of another congruential sequence, which fill state and increment. -/
def ofSeed (seed : UInt64) : Pcg32 :=
  let step := fun x : UInt64 => x * multiplier + 11634580027462260723
  let word := fun x : UInt64 => (output x).toUInt64
  let a := step seed
  let b := step a
  let c := step b
  let d := step c
  let increment := (word c ||| (word d <<< 32)) ||| 1
  next ⟨(word a ||| (word b <<< 32)) + increment, increment⟩

end Pcg32

def word32 : Draw UInt32 := fun g => (Pcg32.output g.state, g.next)

/-- The first word is the low half. -/
def word64 : Draw UInt64 := do
  let low ← word32
  let high ← word32
  return low.toUInt64 ||| (high.toUInt64 <<< 32)

end Rhythm.Random
