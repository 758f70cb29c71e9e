import Rhythm.Pattern

/-! Accents over a rhythm. The accent pattern has its own length, so the two line up again only
after several rounds of the rhythm; the cycle lists all of them. -/
namespace Rhythm

/-- How accents are dealt out. -/
inductive AccentMode
  /-- Onset number `k`, counted through all rounds, takes entry `k` of the accent. -/
  | byOnset
  /-- An onset on step `i` takes entry `i` of the accent. -/
  | byStep
deriving DecidableEq, Repr

/-- Accent flags, one a step, until rhythm and accent line up again. -/
structure AccentCycle where
  rhythm : Pattern
  table : List Bool
deriving DecidableEq, Repr

namespace AccentCycle

/-- Flags of the steps of a rhythm, when `k` onsets came before them. -/
def dealt (accent : Pattern) (k : Nat) : List Bool → List Bool
  | [] => []
  | false :: steps => false :: dealt accent k steps
  | true :: steps => accent.cyclic k :: dealt accent (k + 1) steps

/-- The rounds of the rhythm in which its onsets use up the accent a whole number of times. -/
def rounds (rhythm accent : Pattern) : Nat :=
  if rhythm.onsetCount = 0 then 1 else rhythm.onsetCount.lcm accent.length / rhythm.onsetCount

/-- The whole cycle of a rhythm and an accent. -/
def of (rhythm accent : Pattern) : AccentMode → AccentCycle
  | .byOnset =>
    ⟨rhythm, dealt accent 0 (List.replicate (rounds rhythm accent) rhythm.steps).flatten⟩
  | .byStep =>
    ⟨rhythm, (List.range (rhythm.length.lcm accent.length)).map fun i =>
      rhythm.cyclic i && accent.cyclic i⟩

def length (c : AccentCycle) : Nat := c.table.length

/-- Whether a step is accented, when the cycle repeats without end. -/
def isAccented (c : AccentCycle) (step : Nat) : Bool := c.table[step % c.length]?.getD false

/-- The flags of one round of the rhythm, from a step on. -/
def round (c : AccentCycle) (start : Nat) : List Bool :=
  (List.range c.rhythm.length).map fun i => c.isAccented (start + i)

/-- The number within the cycle of the onset on a step. -/
def onsetNumber? (c : AccentCycle) (step : Nat) : Option Nat :=
  let s := step % c.length
  if c.rhythm.cyclic s then some ((List.range s).countP c.rhythm.cyclic) else none

/-- The cycle as text: an accented onset, a plain onset, a rest. -/
def marks (c : AccentCycle) : List Char :=
  c.table.mapIdx fun i accented =>
    if c.rhythm.cyclic i then if accented then 'X' else 'o' else '.'

end AccentCycle

end Rhythm
