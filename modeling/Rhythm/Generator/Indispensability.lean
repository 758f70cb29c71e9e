import Rhythm.Pattern

/-! How indispensable a position is to the bar, and patterns chosen by that ranking. -/
namespace Rhythm

/-- Which end of the ranking is preferred. -/
inductive Metric
  /-- The most indispensable positions first. -/
  | barlow
  /-- The least indispensable positions first. -/
  | wolrab
deriving DecidableEq, Repr

def Metric.opposite : Metric → Metric
  | .barlow => .wolrab
  | .wolrab => .barlow

/-- The fractions of a bar that carry weight. Of two equally near ones the earlier counts. -/
def musicalFractions : List (Float × Float) := [
  (1.0 / 2.0, 5.0),
  (1.0 / 4.0, 3.0), (3.0 / 4.0, 3.0),
  (1.0 / 3.0, 2.5), (2.0 / 3.0, 2.5),
  (1.0 / 8.0, 1.5), (3.0 / 8.0, 1.5), (5.0 / 8.0, 1.5), (7.0 / 8.0, 1.5),
  (1.0 / 6.0, 1.0), (5.0 / 6.0, 1.0)]

def larger (x y : Float) : Float := if x < y then y else x

/-- The distance to the nearest musical fraction, and the weight of that fraction. -/
def nearestFraction (ratio : Float) : Float × Float :=
  musicalFractions.foldl (fun best f =>
    let distance := (ratio - f.1).abs
    if distance < best.1 then (distance, f.2) else best) (1.0 / 0.0, 0.0)

/-- The weight of a position off the fractions: less the farther it is from the middle, more the
farther from the edges, and a small shift that keeps neighbours apart. -/
def offbeatScore (position steps : Nat) : Float :=
  let half := steps.toFloat / 2.0
  let fromCenter := (position.toFloat - half).abs / half
  let fromEdge := (min position (steps - position)).toFloat / half
  ((1.0 - fromCenter * 0.3) + fromEdge * 0.2) +
    ((position % 3).toFloat * 0.01 + (position % 5).toFloat * 0.005)

/-- The score of a position in a bar of so many steps. -/
def indispensability (position steps : Nat) : Float :=
  if position = 0 then 10.0
  else
    let bar := steps.toFloat
    let divisor := position.gcd steps
    let shared := if 1 < divisor then divisor.toFloat / bar * 10.0 else 0.0
    let (distance, weight) := nearestFraction (position.toFloat / bar)
    let metrical := if distance ≤ 0.5 / bar then larger shared weight else shared
    let score := if metrical < 0.5 then offbeatScore position steps else metrical
    let score := if position + 1 = steps then larger score 7.0 else score
    larger score (0.1 + position.toFloat * 0.001)

def indispensabilityTable (steps : Nat) : List Float :=
  (List.range steps).map (indispensability · steps)

/-- A key by which doubles are in the total order of IEEE 754. -/
def orderKey (x : Float) : Int :=
  let bits : Int := x.toBits.toNat
  if bits < 0x8000000000000000 then bits else 0x7FFFFFFFFFFFFFFF - bits

/-- Positions in ascending order of their keys, equal ones from left to right. -/
def rankBy (key : Nat → Int) (steps : Nat) : List Nat :=
  (List.range steps).mergeSort fun i j => key i ≤ key j

/-- The key of a position for a metric, under given scores. -/
def Metric.key (scores : List Float) : Metric → Nat → Int
  | .barlow, i => -orderKey (scores[i]?.getD 0.0)
  | .wolrab, i => orderKey (scores[i]?.getD 0.0)

/-- The positions of a bar in the order in which a metric prefers them. -/
def ranking (steps : Nat) (m : Metric) : List Nat :=
  rankBy (m.key (indispensabilityTable steps)) steps

namespace Pattern

/-- Onsets on the first positions of an order. -/
def firstOf (order : List Nat) (onsets steps : Nat) : Pattern := ofOnsets (order.take onsets) steps

/-- The pattern with one step changed. -/
def setStep (p : Pattern) (i : Nat) (onset : Bool) : Pattern where
  steps := p.steps.set i onset
  length_pos := by simpa using p.length_pos
  length_le := by simpa using p.length_le

/-- One onset more, on the first free position of an order. -/
def fill (order : List Nat) (p : Pattern) : Option Pattern :=
  (order.find? fun i => !p.isOnset i).map (p.setStep · true)

/-- One onset less, the first of an order. A kept downbeat goes only when it is the last onset. -/
def thin (order : List Nat) (keepDownbeat : Bool) (p : Pattern) : Option Pattern :=
  (order.find? fun i => p.isOnset i && !(keepDownbeat && 1 < p.onsetCount && i == 0)).map
    (p.setStep · false)

/-- One onset more, on the free position a metric prefers most. A full pattern has none. -/
def concentrate (m : Metric) (p : Pattern) : Option Pattern := p.fill (ranking p.length m)

/-- One onset less, the one a metric prefers least. Barlow keeps the downbeat to the last. -/
def dilute (m : Metric) (p : Pattern) : Option Pattern :=
  p.thin (ranking p.length m.opposite) (m == .barlow)

end Pattern

/-- Onsets on the positions that a metric prefers. -/
def preferred (m : Metric) (onsets steps : Nat) : Pattern :=
  .firstOf (ranking (clampSteps steps) m) onsets steps

end Rhythm
