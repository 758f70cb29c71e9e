import Rhythm.Text.Numeral

/-! The words of a command line: switches, and a job with words of its own. -/
namespace Rhythm.Console

open Text

inductive Switch
  | config
  | capacity
  | seed
  | times
  | counterClockwise
  | version
deriving DecidableEq, Repr

namespace Switch

def name : Switch → List Char
  | .config => "config".toList
  | .capacity => "capacity".toList
  | .seed => "seed".toList
  | .times => "times".toList
  | .counterClockwise => "counter-clockwise".toList
  | .version => "version".toList

def letter? : Switch → Option Char
  | .config => some 'c'
  | .times => some 't'
  | .version => some 'V'
  | _ => none

def takesValue : Switch → Bool
  | .counterClockwise | .version => false
  | _ => true

end Switch

/-- What is asked for: a shell, or one of the tasks that have a name. -/
inductive Job
  | shell
  | parse
  | trigger
  | quantize
deriving DecidableEq, Repr

namespace Job

def ofName? (w : List Char) : Option Job :=
  if w = "parse".toList then some .parse
  else if w = "trigger".toList then some .trigger
  else if w = "quantize".toList then some .quantize
  else none

/-- The switches that may stand with a job. -/
def switches : Job → List Switch
  | .shell => [.config, .capacity, .seed, .version]
  | .parse => [.config, .capacity, .seed]
  | .trigger => [.config, .capacity, .seed, .times]
  | .quantize => [.config, .capacity, .seed, .counterClockwise]

end Job

/-- What a word of the command line is. -/
inductive Word
  | plain
  /-- Two dashes: after them every word is plain. -/
  | lastSwitch
  | switch (s : Switch) (attached : Option (List Char))
  | unknown
deriving DecidableEq, Repr

/-- A value attached to a name may follow an equals sign. -/
def attached : List Char → Option (List Char)
  | [] => none
  | '=' :: value => some value
  | value => some value

/-- A dash starts a switch, unless it stands alone. -/
def Job.word (job : Job) : List Char → Word
  | ['-', '-'] => .lastSwitch
  | '-' :: '-' :: cs =>
    let name := cs.takeWhile (· ≠ '=')
    match job.switches.find? (·.name = name) with
    | some s => .switch s (attached (cs.drop name.length))
    | none => .unknown
  | '-' :: c :: cs =>
    match job.switches.find? (·.letter? = some c) with
    | some s => .switch s (if s.takesValue then attached cs else none)
    | none => .unknown
  | _ => .plain

/-- What the words say that stand with a job. -/
structure Given where
  config : Option (List Char) := none
  capacity : Option Nat := none
  seed : Option Nat := none
  times : Option Nat := none
  counterClockwise : Bool := false
  words : List (List Char) := []

/-- Why a command line is not carried out. -/
inductive Refusal
  | misuse
  /-- Only the version is asked for. -/
  | version
deriving DecidableEq, Repr

namespace Given

/-- The value of a switch, which may be given once. -/
def once {α : Type} (before : Option α) (value : Option α) : Except Refusal (Option α) :=
  match before, value with
  | none, some a => .ok (some a)
  | _, _ => .error .misuse

def set (g : Given) (s : Switch) (value : List Char) : Except Refusal Given := do
  match s with
  | .config =>
    let path := if value.isEmpty then none else some value
    return { g with config := ← once g.config path }
  | .capacity => return { g with capacity := ← once g.capacity (count? value) }
  | .seed => return { g with seed := ← once g.seed (count? value) }
  | .times => return { g with times := ← once g.times (count? value) }
  | .counterClockwise =>
    if g.counterClockwise then throw .misuse else return { g with counterClockwise := true }
  | .version => throw .version

end Given

/-- Whether a word may be the value of the switch before it. -/
def isValue (w : List Char) : Bool := w == ['-'] || w.head? != some '-'

/-- Reads words up to the name of a job, and tells which words are left. -/
def Job.scan (job : Job) (g : Given) :
    List (List Char) → Except Refusal (Given × List (List Char))
  | [] => .ok (g, [])
  | w :: ws => do
    match job.word w with
    | .unknown => throw .misuse
    | .lastSwitch => return ({ g with words := g.words ++ ws }, [])
    | .plain =>
      if job = .shell then return (g, w :: ws)
      else job.scan { g with words := g.words ++ [w] } ws
    | .switch s value =>
      if !s.takesValue then
        if value.isSome then throw .misuse else job.scan (← g.set s []) ws
      else
        match value, ws with
        | some value, ws => job.scan (← g.set s value) ws
        | none, v :: ws => if isValue v then job.scan (← g.set s v) ws else throw .misuse
        | none, [] => throw .misuse

/-- What a run is to do. -/
inductive Action
  | shell
  | parse (text : List Char)
  | trigger (text : List Char) (times : Nat)
  | quantize (bits : List Char) (steps : Nat) (clockwise : Bool)
deriving DecidableEq, Repr

structure Request where
  config : Option (List Char)
  capacity : Option Nat
  seed : Option Nat
  action : Action
deriving DecidableEq, Repr

/-- The action of a job with the words after its name. -/
def Job.action (job : Job) (g : Given) : Except Refusal Action :=
  match job, g.words with
  | .shell, [] => .ok .shell
  | .parse, [text] => .ok (.parse text)
  | .trigger, [text] => .ok (.trigger text (g.times.getD 1))
  | .quantize, [bits, steps] =>
    match count? steps with
    | some n => .ok (.quantize bits n (!g.counterClockwise))
    | none => .error .misuse
  | _, _ => .error .misuse

/-- Switches may stand before and after the name of the job; those after it win. -/
def request (args : List (List Char)) : Except Refusal Request := do
  let (top, left) ← Job.shell.scan {} args
  match left with
  | [] => return ⟨top.config, top.capacity, top.seed, ← Job.shell.action top⟩
  | name :: ws =>
    match Job.ofName? name with
    | none => throw .misuse
    | some job =>
      let (g, _) ← job.scan {} ws
      return ⟨g.config.or top.config, g.capacity.or top.capacity, g.seed.or top.seed,
        ← job.action g⟩

end Rhythm.Console
