import Rhythm.Console.Arguments
import Rhythm.Console.Shell
import Rhythm.Settings.Toml

/-! Runs from a command line. -/
namespace Rhythm.Console

open Notation Text

/-- How a run ends. -/
inductive Status
  | success
  | failed (message : String)
  | misused
deriving DecidableEq, Repr

def Status.code : Status → Nat
  | .success => 0
  | .failed _ => 1
  | .misused => 2

/-- The lines a run prints, and its end. -/
structure Outcome where
  lines : List String
  status : Status
deriving DecidableEq, Repr

variable {m : Type → Type} [Monad m]

/-- The settings in a file, given its contents if it can be read. -/
def fileSettings (name : String) : Option String → Except String Settings
  | none => .error s!"reading config {name}"
  | some contents =>
    match (Toml.read? contents.toList).bind Datum.settings? with
    | none => .error s!"parsing config {name}"
    | some s => .ok s

/-- The settings of a file, or the defaults, with those of the command line over them. -/
def settings (read : String → m (Option String)) (r : Request) : m (Except String Settings) := do
  let base ← match r.config with
    | none => pure (Except.ok {})
    | some path => fileSettings (String.ofList path) <$> read (String.ofList path)
  return base.map fun s => s.override r.capacity (r.seed.map .ofNat)

/-- The lines of triggers from number `n` on, up to the first that fails. -/
def triggerLines (colored : Bool) (text : String) (s : Session) (n : Nat) :
    Nat → List String × Status
  | 0 => ([], .success)
  | more + 1 =>
    match s.trigger text with
    | (.error e, _) => ([], .failed e.message)
    | (.ok r, s) =>
      let p := r.evaluation.pattern
      let number := String.ofList (padLeft 4 (Nat.toDigits 10 n))
      let (lines, status) := triggerLines colored text s (n + 1) more
      (s!"{number}  {grid colored p}  {p}" :: lines, status)

/-- Shows a text, and then a number of triggers of it. -/
def showText (colored : Bool) (s : Settings) (text : String) (times : Nat) : Outcome :=
  let (result, session) := (Session.new s).parse text
  let first := report colored result
  match result with
  | .error _ => ⟨[first], .failed "invalid notation"⟩
  | .ok _ =>
    let (lines, status) := triggerLines colored text session 1 times
    ⟨first :: lines, status⟩

def showQuantization (bits : String) (steps : Nat) (clockwise : Bool) : Outcome :=
  match Pattern.ofText bits with
  | .error e => ⟨[], .failed e.message⟩
  | .ok p =>
    match Rhythm.quantize p steps clockwise with
    | .error e => ⟨[], .failed e.message⟩
    | .ok q =>
      let kept := s!"onsets kept: {q.result.onsetCount}/{q.source.onsetCount}"
      let change := String.ofList (signedPlaces 3 q.densityChange)
      ⟨[s!"{p} -> {q.result}", s!"{kept}, conflicts: {q.conflicts}, density change {change}"],
        .success⟩

def version : String := "serpe 0.1.0"

/-- A run that is over, or a shell about to read its input. -/
inductive Start
  | over (o : Outcome)
  | shell (s : Shell)

/-- Begins a run. -/
def start (read : String → m (Option String)) (colored : Bool) (args : List String) :
    m Start := do
  match request (args.map String.toList) with
  | .error .misuse => return .over ⟨[], .misused⟩
  | .error .version => return .over ⟨[version], .success⟩
  | .ok r =>
    match ← settings read r with
    | .error e => return .over ⟨[], .failed e⟩
    | .ok s =>
      match r.action with
      | .shell => return .shell (.new s colored)
      | .parse text => return .over (showText colored s (String.ofList text) 0)
      | .trigger text times => return .over (showText colored s (String.ofList text) times)
      | .quantize bits steps clockwise =>
        return .over (showQuantization (String.ofList bits) steps clockwise)

/-- A whole run, with all of its input. -/
def run (read : String → m (Option String)) (colored : Bool) (args : List String)
    (input : String) : m Outcome := do
  match ← start read colored args with
  | .over o => return o
  | .shell s =>
    let lines ← s.run read (input.toList.splitOn '\n')
    return ⟨Shell.banner colored ++ lines, .success⟩

end Rhythm.Console
