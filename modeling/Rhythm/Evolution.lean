import Rhythm.Generator.Euclidean
import Rhythm.Generator.Indispensability
import Rhythm.Generator.Random
import Rhythm.Random.Stream

/-! Patterns that change from trigger to trigger. -/
namespace Rhythm

open Rhythm.Random

/-- How a pattern comes to its next number of onsets. -/
inductive Strategy
  /-- A Euclidean pattern anew. -/
  | euclidean
  /-- An anti-Euclidean pattern anew. -/
  | dilcue
  /-- The last pattern with one step changed. -/
  | flip (m : Metric)
deriving DecidableEq, Repr

inductive Progression
  /-- Turn so many steps further. -/
  | offset (step : Int)
  /-- Append a random block of so many steps. -/
  | lengthen (block : Nat)
  /-- Move the number of onsets one nearer to a target. -/
  | transform (target : Nat) (strategy : Strategy)
deriving DecidableEq, Repr

inductive EvolutionKind
  | offset
  | lengthening
  | transformation
deriving DecidableEq, Repr

def EvolutionKind.name : EvolutionKind → String
  | .offset => "offset"
  | .lengthening => "lengthening"
  | .transformation => "transformation"

def Progression.kind : Progression → EvolutionKind
  | .offset _ => .offset
  | .lengthen _ => .lengthening
  | .transform .. => .transformation

/-- A pattern on its way from a base. -/
structure Evolution where
  base : Pattern
  progression : Progression
  seed : UInt64
  current : Pattern
  /-- How far an offset has turned the base. -/
  offset : Int
  /-- The number of onsets a transformation has come to. -/
  onsets : Nat
  triggers : Nat
  rng : Pcg32
deriving DecidableEq, Repr

/-- The stream that lengthening draws its blocks from. -/
def lengtheningStream (seed : UInt64) : Pcg32 := stream seed "lengthen".toList

/-- One nearer to a target. -/
def toward (target n : Nat) : Nat := if n < target then n + 1 else n - 1

/-- The next pattern of a strategy, with one onset more or less than `p`. -/
def Strategy.next? (strategy : Strategy) (adding : Bool) (onsets : Nat) (p : Pattern) :
    Option Pattern :=
  match strategy with
  | .euclidean => some (Rhythm.euclidean onsets p.length)
  | .dilcue => some (Rhythm.dilcue onsets p.length)
  | .flip m => if adding then p.concentrate m else p.dilute m

namespace Evolution

def start (base : Pattern) (progression : Progression) (seed : UInt64) : Evolution where
  base := base
  progression := progression
  seed := seed
  current := base
  offset := 0
  onsets := base.onsetCount
  triggers := 0
  rng := lengtheningStream seed

def kind (e : Evolution) : EvolutionKind := e.progression.kind

/-- The onsets a transformation ends at. -/
def goal (e : Evolution) (target : Nat) : Nat := min target e.base.length

/-- Whether no trigger changes the pattern any more. -/
def isSettled (e : Evolution) : Bool :=
  match e.progression with
  | .offset step => step = 0
  | .lengthen block => block = 0 || maxSteps ≤ e.current.length
  | .transform target _ => e.onsets = e.goal target

def turn (e : Evolution) (step : Int) : Evolution :=
  if step = 0 then e
  else
    let offset := (e.offset + step % e.base.length) % e.base.length
    { e with offset, current := e.base.rotate offset }

/-- The block ends where the longest pattern does. -/
def grow [Sampler] (e : Evolution) (block : Nat) : Evolution :=
  let size := min block (maxSteps - e.current.length)
  if size = 0 then e
  else
    let (addition, rng) := bellScatter size e.rng
    match e.current.append addition with
    | .ok p => { e with rng, current := p }
    | .error _ => { e with rng }

def approach (e : Evolution) (target : Nat) (strategy : Strategy) : Evolution :=
  let goal := min target e.current.length
  if e.onsets = goal then e
  else
    let onsets := toward goal e.onsets
    let next := strategy.next? (e.onsets < goal) onsets e.current
    { e with onsets, current := next.getD e.current }

/-- One trigger. -/
def advance [Sampler] (e : Evolution) : Evolution :=
  let e := { e with triggers := e.triggers + 1 }
  match e.progression with
  | .offset step => e.turn step
  | .lengthen block => e.grow block
  | .transform target strategy => e.approach target strategy

/-- Whether the next trigger changes the pattern. -/
def changesNext [Sampler] (e : Evolution) : Bool := e.advance.current != e.current

/-- Back to the base, as if never triggered. -/
def reset (e : Evolution) : Evolution := start e.base e.progression e.seed

end Evolution

end Rhythm
