import Rhythm.Pattern

/-! Euclidean patterns: onsets spread as evenly as the steps allow. -/
namespace Rhythm

/-- Regrouping, with `a` copies of the group `u` before `b` copies of the remainder `v`. Each round
hangs one remainder on each group while both last, as Euclid's algorithm divides; it ends when at
most one remainder is left. -/
def regroup (u : List Bool) (a : Nat) (v : List Bool) (b : Nat) : List Bool :=
  if _ : 1 < b ∧ 0 < a then
    if b < a then regroup (u ++ v) b u (a - b) else regroup (u ++ v) a v (b - a)
  else (List.replicate a u).flatten ++ (List.replicate b v).flatten
termination_by a + b
decreasing_by all_goals omega

/-- Pulses among slots, as evenly as possible. -/
def bjorklund (pulses steps : Nat) : List Bool :=
  if steps ≤ pulses then List.replicate steps true
  else if pulses = 0 then List.replicate steps false
  else regroup [true] pulses [false] (steps - pulses)

/-- The even spread, turned so that the first onset is on step 0. -/
def euclidean (onsets steps : Nat) : Pattern :=
  let n := clampSteps steps
  let slots := bjorklund (min onsets n) n
  (Pattern.tabulate n fun i => slots[i]?.getD false).alignToDownbeat

/-- The rests, instead of the onsets, spread evenly. -/
def dilcue (onsets steps : Nat) : Pattern :=
  let n := clampSteps steps
  (euclidean (n - min onsets n) n).invert

end Rhythm
