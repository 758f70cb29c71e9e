import Rhythm.Performance
import Rhythm.Settings

/-! Sessions. A text with scenes or a progressive suffix is kept from its first success on, and goes
on from where it is; any other text is evaluated each time. -/
namespace Rhythm

open Notation Rhythm.Random

structure Session where
  settings : Settings
  store : Store String Performance

/-- What a text means now. -/
structure Reading where
  evaluation : Evaluation
  sceneIndex : Nat
  sceneCount : Nat
  progressive : Bool
  warnings : List NotationError

/-- Where a kept text stands. -/
structure Summary where
  kind : Option EvolutionKind
  triggers : Nat
  sceneIndex : Nat
  sceneCount : Nat
  pattern : Option Pattern

/-- Whether a text has to be kept. -/
def Notation.Parsed.isStateful (parsed : Parsed) : Bool :=
  match parsed.expr with
  | .scenes _ => true
  | e => e.isProgressive

namespace Reading

/-- The reading of a text that need not be kept. -/
def plain (e : Evaluation) : Reading := ⟨e, 0, 1, false, []⟩

def ofPerformance (e : Evaluation) (p : Performance) : Reading :=
  ⟨e, p.index, p.scenes.length, p.isProgressive, p.warnings⟩

end Reading

namespace Performance

/-- Shows the performance, after a trigger if it is to go on. -/
def perform (seed : UInt64) (advancing : Bool) (p : Performance) :
    Except NotationError Reading × Performance :=
  let (result, p) := if advancing then p.trigger seed else p.render seed
  (result.map (Reading.ofPerformance · p), p)

/-- The first showing of a performance, and the trigger after it if there is to be one. -/
def debut (seed : UInt64) (advancing : Bool) (p : Performance) :
    Except NotationError Reading × Performance :=
  let (result, p) := p.perform seed false
  match result with
  | .ok r => if advancing then p.perform seed true else (.ok r, p)
  | .error e => (.error e, p)

end Performance

namespace Session

def new (settings : Settings) : Session :=
  ⟨settings, .empty settings.capacity settings.eviction⟩

def seed (s : Session) : UInt64 := s.settings.seed

/-- The reading of a text that is not kept. It is kept from now on if it has to be and the reading
succeeds. -/
def introduce (s : Session) (text : String) (advancing : Bool) :
    Except NotationError Reading × Session :=
  match parse text.toList with
  | .error e => (.error e, s)
  | .ok parsed =>
    if !parsed.isStateful then ((parsed.expr.eval s.seed).map Reading.plain, s)
    else
      let start := Performance.start parsed (derivedSeed s.seed text.toList)
      match start.debut s.seed advancing with
      | (.ok r, p) => (.ok r, { s with store := (s.store.insert text p).2 })
      | (.error e, _) => (.error e, s)

/-- The reading of a text, after a trigger if it is to go on. -/
def read (s : Session) (text : String) (advancing : Bool) :
    Except NotationError Reading × Session :=
  match s.store.access text (Performance.perform s.seed advancing) with
  | (some r, store) => (r, { s with store })
  | (none, store) => { s with store }.introduce text advancing

/-- What the text means now. Nothing moves on. -/
def parse (s : Session) (text : String) : Except NotationError Reading × Session :=
  s.read text false

/-- One trigger of the text. One that need not be kept stays as it is. -/
def trigger (s : Session) (text : String) : Except NotationError Reading × Session :=
  s.read text true

/-- Puts a text back to its start. Tells whether it was kept. -/
def reset (s : Session) (text : String) : Bool × Session :=
  let (found, store) := s.store.access text fun p => ((), p.reset)
  (found.isSome, { s with store })

/-- Puts every text back to its start. -/
def resetAll (s : Session) : Session := { s with store := s.store.mapValues .reset }

/-- Keeps a text no longer. Tells whether it was kept. -/
def forget (s : Session) (text : String) : Bool × Session :=
  (s.store.contains text, { s with store := s.store.remove text })

def state? (s : Session) (text : String) : Option Summary :=
  (s.store.peek? text).map fun p => ⟨p.kind?, p.triggers, p.index, p.scenes.length, p.shown?⟩

/-- The kept texts in alphabetical order. -/
def texts (s : Session) : List String := s.store.sortedKeys

end Session

end Rhythm
