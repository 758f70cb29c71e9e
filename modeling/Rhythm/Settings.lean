import Rhythm.Store

/-! What can be set about a session. -/
namespace Rhythm

structure Settings where
  /-- How many texts may be kept at a time. -/
  capacity : Nat := 100
  eviction : Policy := .lru
  /-- The seed of random calls without one, and of lengthening. -/
  seed : UInt64 := 0x5ee9e
deriving DecidableEq, Repr

/-- The settings with single ones replaced. -/
def Settings.override (s : Settings) (capacity : Option Nat) (seed : Option UInt64) : Settings :=
  { s with capacity := capacity.getD s.capacity, seed := seed.getD s.seed }

end Rhythm
