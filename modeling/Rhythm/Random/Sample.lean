import Rhythm.Random.Pcg32

/-! Uniform draws: a number below a bound, and distinct numbers below a bound. -/
namespace Rhythm.Random

/-- The part of a product of two 32-bit words below which the high half is uniform on `0..n`. -/
def zone (n : Nat) : Nat := n <<< (31 - n.log2) - 1

/-- Draws until a word falls into the zone, at most `fuel` times. -/
def tryBelow (n : Nat) : Nat → Draw Nat
  | 0 => pure 0
  | fuel + 1 => do
    let w ← word32
    let product := w.toNat * n
    if product % 0x100000000 ≤ zone n then pure (product / 0x100000000) else tryBelow n fuel

/-- A number below `n`. What a whole period has rejected never comes. -/
def below (n : Nat) : Draw Nat := tryBelow n Pcg32.period

/-- The first `amount` entries after as many random transpositions, each with a later entry. -/
def shuffled (length amount : Nat) : Draw (List Nat) := do
  let a ← (List.range amount).foldlM (fun (a : Array Nat) i => do
    let j ← below (length - i)
    pure (a.swapIfInBounds i (i + j))) (Array.range length)
  return a.toList.take amount

/-- One number for each `j` in the last `amount` below `length`: a number up to `j`, or `j` itself
when that number is taken. -/
def collected (length amount : Nat) : Draw (List Nat) :=
  (List.range' (length - amount) amount).foldlM (fun chosen j => do
    let t ← below (j + 1)
    pure ((if t ∈ chosen then j else t) :: chosen)) []

/-- `amount` distinct numbers below `length`. -/
def sample (length amount : Nat) : Draw (List Nat) :=
  if 12 ≤ amount then shuffled length amount else collected length amount

end Rhythm.Random
