import Rhythm.Notation.Parser

/-! Texts of several scenes. Every scene is read on its own; one that cannot be read is a rest. -/
namespace Rhythm.Notation

/-- An expression, and the faults of scenes that became rests. -/
structure Parsed where
  expr : Expr
  warnings : List NotationError

/-- The scenes of a text, each with the place of its first character. -/
def sceneTexts (text : List Char) : List (Nat × List Char) := located 0 (text.splitOn '|')
where
  located (place : Nat) : List (List Char) → List (Nat × List Char)
    | [] => []
    | t :: ts => (place, t) :: located (place + t.length + 1) ts

/-- What stands in for a scene that cannot be read. -/
def restScene : Expr := .literal (.rests 1)

def expr? : Fallible Expr → Option Expr
  | .ok e => some e
  | .error _ => none

/-- The faults among scenes, each with the number of its scene. -/
def sceneFaults (number : Nat) : List (Fallible Expr) → List NotationError
  | [] => []
  | .ok _ :: rs => sceneFaults (number + 1) rs
  | .error e :: rs => e.inScene number :: sceneFaults (number + 1) rs

/-- A text of several scenes is refused only when no scene can be read, for the first one's fault. -/
def ofScenes (readings : List (Fallible Expr)) : Fallible Parsed :=
  match readings.filterMap expr?, sceneFaults 1 readings with
  | [], e :: _ => .error e
  | _, warnings => .ok ⟨.scenes (readings.map fun r => (expr? r).getD restScene), warnings⟩

def parse (text : List Char) : Fallible Parsed :=
  match sceneTexts text with
  | [(place, t)] => (parseSegment place t).map (⟨·, []⟩)
  | ts => ofScenes (ts.map fun t => parseSegment t.1 t.2)

end Rhythm.Notation
