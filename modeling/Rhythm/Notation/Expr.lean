import Rhythm.Notation.Family
import Rhythm.Notation.Span

/-! Expressions: what a notation text says. -/
namespace Rhythm.Notation

/-- How a pattern is to change from trigger to trigger. -/
inductive Suffix
  /-- Turn so many steps further. -/
  | offset (step : Int)
  /-- Append a block of so many steps. -/
  | lengthen (block : Nat)
  /-- Move the number of onsets one nearer to a target, in the manner of a family. -/
  | transform (target : Nat) (family : Option Family)
deriving DecidableEq, Repr

inductive Expr
  /-- Binary literals, numerals, onset lists, morse and presets, already read. -/
  | literal (p : Pattern)
  | generator (family : Family) (args : List Int) (span : Span)
  /-- Random placement of a random number of onsets. -/
  | bell (steps : Nat) (seed : Option UInt64) (span : Span)
  | accented (accent body : Expr)
  | quantized (body : Expr) (steps : Nat) (clockwise : Bool) (span : Span)
  | progressive (suffix : Suffix) (body : Expr)
  | combination (how : Merge) (left right : Expr) (span : Span)
  /-- Patterns one after the other. -/
  | chain (parts : List Expr) (span : Span)
  | invert (body : Expr)
  | reverse (body : Expr)
  | rotate (body : Expr) (offset : Int)
  /-- Patterns that take turns. -/
  | scenes (parts : List Expr)

namespace Expr

mutual

/-- Whether the expression changes from trigger to trigger. -/
def isProgressive : Expr → Bool
  | .progressive .. => true
  | .literal _ | .generator .. | .bell .. => false
  | .accented accent body => accent.isProgressive || body.isProgressive
  | .quantized body .. | .invert body | .reverse body | .rotate body _ => body.isProgressive
  | .combination _ left right _ => left.isProgressive || right.isProgressive
  | .chain parts _ | .scenes parts => anyProgressive parts

def anyProgressive : List Expr → Bool
  | [] => false
  | e :: es => e.isProgressive || anyProgressive es

end

mutual

/-- The same expression in a text that is `n` characters further along. -/
def shift (n : Nat) : Expr → Expr
  | .literal p => .literal p
  | .generator family args span => .generator family args (span.shift n)
  | .bell steps seed span => .bell steps seed (span.shift n)
  | .accented accent body => .accented (accent.shift n) (body.shift n)
  | .quantized body steps clockwise span => .quantized (body.shift n) steps clockwise (span.shift n)
  | .progressive suffix body => .progressive suffix (body.shift n)
  | .combination how left right span => .combination how (left.shift n) (right.shift n) (span.shift n)
  | .chain parts span => .chain (shiftAll n parts) (span.shift n)
  | .invert body => .invert (body.shift n)
  | .reverse body => .reverse (body.shift n)
  | .rotate body offset => .rotate (body.shift n) offset
  | .scenes parts => .scenes (shiftAll n parts)

def shiftAll (n : Nat) : List Expr → List Expr
  | [] => []
  | e :: es => e.shift n :: shiftAll n es

end

end Expr

end Rhythm.Notation
