import Rhythm.Console.Style
import Rhythm.Pattern.Codec
import Rhythm.Session

/-! What a reading looks like on a terminal. -/
namespace Rhythm.Console

open Notation

/-- A pattern as a row of crosses and dots. -/
def grid (colored : Bool) (p : Pattern) : String :=
  String.join <| p.steps.map fun s =>
    if s then paint colored (.strong .brightYellow) "x"
    else paint colored (.colour .brightBlack) "."

/-- The numeral of a pattern. -/
def numeral (p : Pattern) (radix : Radix) : String := String.ofList (p.encode radix)

def quantizationLines (colored : Bool) (q : Quantization) : List String :=
  let way := if q.clockwise then "clockwise" else "counter-clockwise"
  let projection := s!"quantized {q.source.length} -> {q.result.length} steps ({way})"
  let kept := s!"{q.result.onsetCount} of {q.source.onsetCount} onsets kept"
  let merged := paint colored (.colour .yellow) s!"{q.conflicts} onsets merged"
  s!"{projection}, {kept}" :: if 0 < q.conflicts then [merged] else []

def readingLines (colored : Bool) (r : Reading) : List String :=
  let p := r.evaluation.pattern
  let shown := fun radix => paint colored (.colour .cyan) (numeral p radix)
  let bits := paint colored (.colour .brightWhite) (toString p)
  let counts := s!"{p.length} steps, {p.onsetCount} onsets"
  let accent := r.evaluation.accent.map fun a =>
    "accent " ++ paint colored (.colour .yellow) (toString a)
  let scene := s!"scene {r.sceneIndex + 1}/{r.sceneCount}"
  [grid colored p ++ "  " ++ bits,
    s!"{counts}   {shown .hex}  {shown .octal}  {shown .decimal}"] ++
    accent.toList ++
    (if 1 < r.sceneCount then [scene] else []) ++
    (r.evaluation.quantization.map (quantizationLines colored)).getD [] ++
    r.warnings.map fun w => paint colored (.strong .yellow) "warning:" ++ " " ++ w.message

def faultLine (colored : Bool) (e : NotationError) : String :=
  paint colored (.strong .brightRed) "Parse error:" ++ " " ++ paint colored (.colour .red) e.message

/-- The lines of a reading, or the one line of its fault. -/
def report (colored : Bool) : Except NotationError Reading → String
  | .ok r => "\n".intercalate (readingLines colored r)
  | .error e => faultLine colored e

end Rhythm.Console
