import Rhythm.Accent
import Rhythm.Console.Help
import Rhythm.Console.Registry
import Rhythm.Console.Report
import Rhythm.Text.Numeral

/-! The commands of the console. -/
namespace Rhythm

open Notation Text

/-- A session with a text in hand. -/
structure Console where
  session : Session
  /-- The last text that could be read. Commands without a text of their own are about it. -/
  current : Option String
  /-- Whether output is in colour. -/
  colored : Bool

namespace Console

inductive Command
  | tick
  | reset
  | resetAll
  | forget
  | state
  | quantize
  | accents
  | help
  | quit
  | watch
  | seed
  | capacity
deriving DecidableEq, Repr

/-- What a line brings about. -/
inductive Reply
  | message (text : String)
  | failure (text : String)
  | watch (path : String)
  | quit
deriving DecidableEq, Repr

/-- The commands that every console has. -/
def commands : Registry Command := .ofList [
  ("tick".toList, .tick),
  ("reset all".toList, .resetAll),
  ("reset".toList, .reset),
  ("forget".toList, .forget),
  ("state".toList, .state),
  ("quantize".toList, .quantize),
  ("accents".toList, .accents),
  ("help".toList, .help),
  ("quit".toList, .quit),
  ("exit".toList, .quit),
  ("watch".toList, .watch),
  ("seed".toList, .seed),
  ("capacity".toList, .capacity)]

def new (settings : Settings) (colored : Bool) : Console := ⟨.new settings, none, colored⟩

/-- Reads a text, and takes it in hand if that succeeds. -/
def submit (text : String) (c : Console) : Except NotationError Reading × Console :=
  let (result, session) := c.session.parse text
  (result, { c with session, current := if result.isOk then some text else c.current })

/-- One trigger of a text, which is taken in hand if that succeeds. -/
def trigger (text : String) (c : Console) : Except NotationError Reading × Console :=
  let (result, session) := c.session.trigger text
  (result, { c with session, current := if result.isOk then some text else c.current })

/-- Runs a command on the text it names, else on the text in hand. -/
def onTarget (args : List Char) (c : Console) (run : String → Reply × Console) :
    Reply × Console :=
  let given := if args.isEmpty then none else some (String.ofList args)
  match given.or c.current with
  | some text => run text
  | none => (.failure "No current notation. Enter one first or pass it as an argument", c)

def notKept (text : String) : Reply := .message s!"{text} has no evolution state"

def stateLines (colored : Bool) (text : String) (s : Summary) : List String :=
  let kind := (s.kind.map EvolutionKind.name).getD "static"
  [paint colored .bold text, s!"  kind: {kind}", s!"  triggers: {s.triggers}",
    s!"  scene: {s.sceneIndex + 1}/{s.sceneCount}"] ++
    (s.pattern.map fun p => s!"  pattern: {p}").toList

/-- The part of the onsets that is left, in percent, and the change in density. -/
def quantizationReport (colored : Bool) (q : Quantization) : String :=
  let result := paint colored (.colour .brightWhite) (toString q.result)
  let percent := String.ofList (fixedPlaces 0 (q.preserved * 100.0))
  let change := String.ofList (signedPlaces 3 q.densityChange)
  let kept := s!"onsets kept: {q.result.onsetCount}/{q.source.onsetCount} ({percent}%)"
  s!"{q.source} -> {result}\n  {kept}, density change {change}"

/-- Projects the pattern of a text onto another number of steps. -/
def quantized (source : String) (steps : Nat) (clockwise : Bool) (c : Console) : Reply × Console :=
  let (result, session) := c.session.parse source
  let c := { c with session }
  match result with
  | .error e => (.failure e.message, c)
  | .ok r =>
    match Rhythm.quantize r.evaluation.pattern steps clockwise with
    | .error e => (.failure e.message, c)
    | .ok q => (.message (quantizationReport c.colored q), c)

def runQuantize (args : List Char) (c : Console) : Reply × Console :=
  let run := fun (source steps : List Char) (clockwise : Bool) =>
    match count? steps with
    | none =>
      let given := String.ofList steps
      (.failure s!"Invalid step count '{given}'", c)
    | some n => c.quantized (String.ofList source) n clockwise
  match words args with
  | [source, steps] => run source steps true
  | [source, steps, direction] =>
    if direction = "ccw".toList then run source steps false else usage
  | _ => usage
where
  usage : Reply × Console := (.failure "Usage: quantize <notation> <steps> [ccw]", c)

def accentReport (p accent : Pattern) : String :=
  let line := fun (name : String) (mode : AccentMode) =>
    let cycle := AccentCycle.of p accent mode
    s!"{name} ({cycle.length} steps): {String.ofList cycle.marks}"
  line "onset-indexed" .byOnset ++ "\n" ++ line "step-indexed " .byStep

def runAccents (text : String) (c : Console) : Reply × Console :=
  let (result, session) := c.session.parse text
  let c := { c with session }
  match result with
  | .ok ⟨⟨p, some accent, _⟩, _, _, _, _⟩ => (.message (accentReport p accent), c)
  | _ => (.failure s!"{text} has no accent pattern", c)

/-- The seed in hexadecimal. -/
def seedText (seed : UInt64) : String := "0x" ++ String.ofList (Nat.toDigits 16 seed.toNat)

def Command.run (command : Command) (args : List Char) (c : Console) : Reply × Console :=
  match command with
  | .tick => c.onTarget args fun text =>
    let (result, c) := c.trigger text
    (.message (report c.colored result), c)
  | .reset => c.onTarget args fun text =>
    let (kept, session) := c.session.reset text
    let done := .message (paint c.colored (.colour .brightGreen) text ++ " reset")
    (if kept then done else notKept text, { c with session })
  | .resetAll =>
    let session := c.session.resetAll
    (.message s!"Reset all {session.store.size} stored notations", { c with session })
  | .forget => c.onTarget args fun text =>
    let (kept, session) := c.session.forget text
    (if kept then .message s!"Forgot {text}" else notKept text, { c with session })
  | .state => c.onTarget args fun text =>
    match c.session.state? text with
    | some s => (.message ("\n".intercalate (stateLines c.colored text s)), c)
    | none => (notKept text, c)
  | .quantize => c.runQuantize args
  | .accents => c.onTarget args fun text => c.runAccents text
  | .help => (.message ("\n".intercalate (Console.help c.colored)), c)
  | .quit => (.quit, c)
  | .watch =>
    (if args.isEmpty then .failure "Usage: watch <file>" else .watch (String.ofList args), c)
  | .seed => (.message ("Seed: " ++ seedText c.session.seed), c)
  | .capacity =>
    let s := c.session.store
    (.message s!"State store: {s.size}/{s.capacity} entries ({s.policy.name} eviction)", c)

/-- Runs a line that is a command. -/
def execute? (registry : Registry Command) (line : List Char) (c : Console) :
    Option (Reply × Console) :=
  (registry.lookup line).map fun (command, args) => command.run args c

/-- Shows a line that is no command as a text. -/
def display (line : List Char) (c : Console) : Reply × Console :=
  let (result, c) := c.submit (String.ofList line)
  (.message (report c.colored result), c)

/-- Runs a command or shows a text. -/
def answer (line : List Char) (c : Console) : Reply × Console :=
  (c.execute? commands line).getD (c.display line)

end Console

end Rhythm
