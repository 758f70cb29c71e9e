/-! Sets of characters as intervals of code points. -/
namespace Rhythm.Text

/-- The first and the last code point of each interval. -/
abbrev CodePoints := List (Nat × Nat)

def CodePoints.has (s : CodePoints) (c : Char) : Bool :=
  s.any fun r => r.1 ≤ c.toNat && c.toNat ≤ r.2

end Rhythm.Text
