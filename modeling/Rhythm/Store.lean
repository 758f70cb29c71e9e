/-! A store of bounded size. When it is full, a new key takes the place of an old one. -/
namespace Rhythm

/-- What is known about the use of an entry, in ticks of the store's clock. -/
structure Usage where
  insertedAt : Nat
  lastAccess : Nat
  hits : Nat
deriving DecidableEq, Repr

/-- Which entry has to go. -/
inductive Policy
  /-- The one not used for the longest time. -/
  | lru
  /-- The one used least often, and of several such the one not used for the longest time. -/
  | lfu
deriving DecidableEq, Repr

namespace Policy

def name : Policy → String
  | .lru => "lru"
  | .lfu => "lfu"

def ofName? (name : String) : Option Policy :=
  if name = "lru" then some .lru else if name = "lfu" then some .lfu else none

/-- Whether `a` has to go before `b`. -/
def before : Policy → Usage → Usage → Bool
  | .lru, a, b => a.lastAccess < b.lastAccess
  | .lfu, a, b => a.hits < b.hits || (a.hits == b.hits && a.lastAccess < b.lastAccess)

/-- The first of those that no other has to go before. -/
def victim? {α : Type} (policy : Policy) (usage : α → Usage) : List α → Option α
  | [] => none
  | a :: as =>
    match policy.victim? usage as with
    | none => some a
    | some b => if policy.before (usage b) (usage a) then some b else some a

/-- The index of the victim. -/
def victimIndex? (policy : Policy) (candidates : List Usage) : Option Nat :=
  (policy.victim? (·.1) candidates.zipIdx).map (·.2)

end Policy

structure Entry (κ α : Type) where
  key : κ
  value : α
  usage : Usage
deriving DecidableEq, Repr

structure Store (κ α : Type) where
  entries : List (Entry κ α)
  capacity : Nat
  policy : Policy
  /-- The number of insertions and look-ups so far. -/
  clock : Nat

namespace Store

variable {κ α β : Type} [DecidableEq κ]

/-- The empty store. It holds at least one entry, whatever is asked for. -/
def empty (capacity : Nat) (policy : Policy) : Store κ α := ⟨[], max capacity 1, policy, 0⟩

def size (s : Store κ α) : Nat := s.entries.length

def isEmpty (s : Store κ α) : Bool := s.entries.isEmpty

def keys (s : Store κ α) : List κ := s.entries.map (·.key)

def sortedKeys [LE κ] [DecidableLE κ] (s : Store κ α) : List κ :=
  s.keys.mergeSort fun a b => decide (a ≤ b)

def find? (s : Store κ α) (key : κ) : Option (Entry κ α) :=
  s.entries.find? fun e => e.key = key

def contains (s : Store κ α) (key : κ) : Bool := (s.find? key).isSome

/-- The value under a key, without this being an access. -/
def peek? (s : Store κ α) (key : κ) : Option α := (s.find? key).map (·.value)

def usage? (s : Store κ α) (key : κ) : Option Usage := (s.find? key).map (·.usage)

def tick (s : Store κ α) : Store κ α := { s with clock := s.clock + 1 }

/-- Looks a key up, which is an access, and lets `f` read and change the value. The clock goes on
even when there is no such key. -/
def access (s : Store κ α) (key : κ) (f : α → β × α) : Option β × Store κ α :=
  let s := s.tick
  match s.find? key with
  | none => (none, s)
  | some e =>
    let (b, value) := f e.value
    let usage := { e.usage with lastAccess := s.clock, hits := e.usage.hits + 1 }
    let entries := s.entries.map fun d => if d.key = key then ⟨key, value, usage⟩ else d
    (some b, { s with entries })

def remove (s : Store κ α) (key : κ) : Store κ α :=
  { s with entries := s.entries.filter fun e => e.key ≠ key }

/-- Drops the victim of the policy, if there is one, and tells its key. -/
def evict (s : Store κ α) : Option κ × Store κ α :=
  match (s.policy.victimIndex? (s.entries.map (·.usage))).bind fun i => s.keys[i]? with
  | none => (none, s)
  | some key => (some key, s.remove key)

/-- Puts a value under a key and tells the key that had to go for it, if one had to. -/
def insert (s : Store κ α) (key : κ) (value : α) : Option κ × Store κ α :=
  let full := !s.contains key && s.capacity ≤ s.size
  let (evicted, s) := if full then s.evict else (none, s)
  let s := (s.remove key).tick
  (evicted, { s with entries := s.entries ++ [⟨key, value, ⟨s.clock, s.clock, 0⟩⟩] })

def clear (s : Store κ α) : Store κ α := { s with entries := [] }

/-- Every value changed, without this being an access. -/
def mapValues (s : Store κ α) (f : α → α) : Store κ α :=
  { s with entries := s.entries.map fun e => { e with value := f e.value } }

end Store

end Rhythm
