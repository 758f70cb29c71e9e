import Rhythm.Evolution
import Rhythm.Generator.Polygon
import Rhythm.Notation.Fault
import Rhythm.Notation.Expr
import Rhythm.Text.Numeral

/-! From expressions to patterns. -/
namespace Rhythm.Notation

open Rhythm.Random Text

structure Evaluation where
  pattern : Pattern
  accent : Option Pattern
  /-- The last projection made on the way. -/
  quantization : Option Quantization
deriving DecidableEq, Repr

/-- The progression that a suffix asks for. A transformation follows the family it names, else that
of the generator it stands at, else Barlow's ranking. -/
def progressionFor (suffix : Suffix) (body : Expr) : Progression :=
  match suffix with
  | .offset step => .offset step
  | .lengthen block => .lengthen block
  | .transform target family =>
    let own : Option Family := match body with
      | .generator family .. => some family
      | _ => none
    match family.or own with
    | some .euclidean => .transform target .euclidean
    | some .dilcue => .transform target .dilcue
    | some f => .transform target (.flip (f.metric?.getD .barlow))
    | none => .transform target (.flip .barlow)

/-- A random call without a seed draws from a stream named by the call and its place, so that equal
calls differ. -/
def callStream (seed : UInt64) (call : List Char) (span : Span) : Pcg32 :=
  stream seed (call ++ '@' :: decimal span.start)

/-- The pattern of a generator call. A count that is missing or negative is 0; a polygon without
steps has as many as it has sides. -/
def generated (seed : UInt64) (family : Family) (args : List Int) (span : Span) : Pattern :=
  let first := (args[0]?.getD 0).toNat
  let second := (args[1]?.getD 0).toNat
  match family with
  | .euclidean => (euclidean first second).rotate (args[2]?.getD 0)
  | .barlow => preferred .barlow first second
  | .wolrab => preferred .wolrab first second
  | .dilcue => dilcue first second
  | .polygon => polygon first (args[1]?.getD 0) ((args[2]?.map Int.toNat).getD first)
  | .random =>
    match args[2]? with
    | some own => seeded first second (.ofInt own)
    | none =>
      let call := 'R' :: '(' :: decimal first ++ ',' :: decimal second ++ [')']
      (scatter first second (callStream seed call span)).1

/-- The pattern of a random call with a random number of onsets. -/
def bellGenerated (seed : UInt64) (steps : Nat) (own : Option UInt64) (span : Span) : Pattern :=
  let n := clampSteps steps
  let rng := match own with
    | some own => stream own ['R', '(', 'r', ')']
    | none => callStream seed ('R' :: '(' :: 'r' :: ',' :: decimal n ++ [')']) span
  (bellScatter n rng).1

/-- Who tells what a progressive expression looks like now, given where it starts. -/
abbrev Resolver (σ : Type) := Progression → Pattern → StateM σ Pattern

/-- Progressive expressions at their start. -/
def atStart : Resolver Unit := fun _ base => pure base

structure EvalState (σ : Type) where
  memory : σ
  quantization : Option Quantization

/-- Evaluation may fail, and what happened before a failure stays. -/
abbrev Eval (σ : Type) := ExceptT NotationError (StateM (EvalState σ))

variable {σ : Type}

def failAt {α : Type} (fault : Fault) (span : Span) : Eval σ α := throw ⟨fault, span⟩

def merged (span : Span) : Except PatternError Pattern → Eval σ Pattern
  | .ok p => pure p
  | .error e => failAt (.pattern e) span

def quantized (p : Pattern) (steps : Nat) (clockwise : Bool) (span : Span) : Eval σ Pattern :=
  match quantize p steps clockwise with
  | .ok q => do
    modify fun s => { s with quantization := some q }
    return q.result
  | .error e => failAt (.quantize e) span

def resolved (resolve : Resolver σ) (progression : Progression) (base : Pattern) :
    Eval σ Pattern := do
  let s ← get
  let (p, memory) := resolve progression base s.memory
  set { s with memory }
  return p

namespace Expr

mutual

/-- The pattern of an expression. Accents inside it decorate nothing; of scenes the first counts. -/
def pattern (seed : UInt64) (resolve : Resolver σ) : Expr → Eval σ Pattern
  | .literal p => pure p
  | .generator family args span => pure (generated seed family args span)
  | .bell steps own span => pure (bellGenerated seed steps own span)
  | .accented _ body => body.pattern seed resolve
  | .quantized body steps clockwise span => do
    Notation.quantized (← body.pattern seed resolve) steps clockwise span
  | .progressive suffix body => do
    resolved resolve (progressionFor suffix body) (← body.pattern seed resolve)
  | .combination how left right span => do
    let p ← left.pattern seed resolve
    let q ← right.pattern seed resolve
    merged span (Pattern.combine how p q)
  | .chain parts span => strung seed resolve span none parts
  | .invert body => return (← body.pattern seed resolve).invert
  | .reverse body => return (← body.pattern seed resolve).reverse
  | .rotate body offset => return (← body.pattern seed resolve).rotate offset
  | .scenes [] => pure (.rests 1)
  | .scenes (e :: _) => e.pattern seed resolve

/-- Patterns strung onto those before them. -/
def strung (seed : UInt64) (resolve : Resolver σ) (span : Span) (before : Option Pattern) :
    List Expr → Eval σ Pattern
  | [] => pure (before.getD (.rests 1))
  | e :: es => do
    let p ← e.pattern seed resolve
    let p ← match before with
      | none => pure p
      | some b => merged span (b.append p)
    strung seed resolve span (some p) es

end

/-- The pattern and, for an accented expression, the accent, which comes first. -/
def layers (seed : UInt64) (resolve : Resolver σ) : Expr → Eval σ (Pattern × Option Pattern)
  | .accented accent body => do
    let a ← accent.pattern seed resolve
    let p ← body.pattern seed resolve
    return (p, some a)
  | e => return (← e.pattern seed resolve, none)

/-- The evaluation of an expression, and the memory it leaves. -/
def evalWith (seed : UInt64) (resolve : Resolver σ) (memory : σ) (e : Expr) :
    Except NotationError Evaluation × σ :=
  match (e.layers seed resolve).run.run ⟨memory, none⟩ with
  | (.ok (p, accent), s) => (.ok ⟨p, accent, s.quantization⟩, s.memory)
  | (.error err, s) => (.error err, s.memory)

/-- The evaluation of an expression by itself. The seed serves random calls without one. -/
def eval (seed : UInt64) (e : Expr) : Except NotationError Evaluation :=
  (e.evalWith seed atStart ()).1

end Expr

end Rhythm.Notation
