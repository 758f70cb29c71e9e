import Rhythm.Notation.Eval
import Rhythm.Notation.Scenes

/-! A text as it is played: its scenes take turns, and each keeps its own evolution. -/
namespace Rhythm

open Notation Rhythm.Random

structure Scene where
  expr : Expr
  seed : UInt64
  /-- How far the scene's progressive expression has come, once it has been shown. -/
  evolution : Option Evolution

/-- A progressive expression shows the evolution a scene has, or starts it. -/
def Scene.resolver (seed : UInt64) : Resolver (Option Evolution) := fun progression base slot =>
  let e := slot.getD (.start base progression seed)
  (e.current, some e)

namespace Scene

/-- What the scene shows, with random calls under a seed. -/
def render (seed : UInt64) (s : Scene) : Except NotationError Evaluation × Scene :=
  let (result, evolution) := s.expr.evalWith seed (resolver s.seed) s.evolution
  (result, { s with evolution })

def advance (s : Scene) : Scene := { s with evolution := s.evolution.map .advance }

def reset (s : Scene) : Scene := { s with evolution := s.evolution.map .reset }

end Scene

structure Performance where
  scenes : List Scene
  /-- Whose turn it is. -/
  index : Nat
  index_lt : index < scenes.length
  triggers : Nat
  /-- The faults of scenes that became rests. -/
  warnings : List NotationError
  /-- The pattern shown last. -/
  last : Option Pattern

namespace Performance

/-- The expressions that take turns. -/
def parts : Expr → List Expr
  | .scenes (e :: es) => e :: es
  | e => [e]

theorem parts_ne_nil (e : Expr) : parts e ≠ [] := by
  unfold parts
  split <;> simp

def sceneName (i : Nat) : List Char := "scene ".toList ++ Text.decimal i

/-- The performance of a parsed text, before anything is shown. Every scene has a seed of its
own. -/
def start (parsed : Parsed) (seed : UInt64) : Performance where
  scenes := (parts parsed.expr).mapIdx fun i e => ⟨e, derivedSeed seed (sceneName i), none⟩
  index := 0
  index_lt := by simpa using List.length_pos_iff.2 (parts_ne_nil _)
  triggers := 0
  warnings := parsed.warnings
  last := none

def current (p : Performance) : Scene := p.scenes.get ⟨p.index, p.index_lt⟩

/-- The performance with its current scene in another state. -/
def setCurrent (p : Performance) (s : Scene) : Performance :=
  { p with scenes := p.scenes.set p.index s, index_lt := by simpa using p.index_lt }

/-- The next scene's turn; after the last one the first. -/
def next (p : Performance) : Performance :=
  { p with
    index := (p.index + 1) % p.scenes.length
    index_lt := Nat.mod_lt _ (Nat.zero_lt_of_lt p.index_lt) }

/-- Shows the current scene. -/
def render (seed : UInt64) (p : Performance) : Except NotationError Evaluation × Performance :=
  let (result, scene) := p.current.render seed
  let p := p.setCurrent scene
  match result with
  | .ok e => (.ok e, { p with last := some e.pattern })
  | .error e => (.error e, p)

/-- The current scene evolves, and the next one is shown. -/
def trigger (seed : UInt64) (p : Performance) : Except NotationError Evaluation × Performance :=
  let p := (p.setCurrent p.current.advance).next
  render seed { p with triggers := p.triggers + 1 }

/-- The first scene again, and every evolution at its base. -/
def reset (p : Performance) : Performance where
  scenes := p.scenes.map .reset
  index := 0
  index_lt := by simpa using Nat.zero_lt_of_lt p.index_lt
  triggers := 0
  warnings := p.warnings
  last := none

def kind? (p : Performance) : Option EvolutionKind := p.current.evolution.map Evolution.kind

def isProgressive (p : Performance) : Bool := p.scenes.any fun s => s.expr.isProgressive

/-- The pattern shown last, or else where the current scene's evolution stands. -/
def shown? (p : Performance) : Option Pattern :=
  p.last.or (p.current.evolution.map (·.current))

end Performance

end Rhythm
