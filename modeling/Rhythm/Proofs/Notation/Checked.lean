import Rhythm.Proofs.Generator.Checked
import Rhythm.Proofs.Notation.Course

/-! Evaluation as a machine makes it, with all that can stop it. It never stops, and comes to the
same. -/
namespace Rhythm.Notation

open Rhythm.Random Text

variable {σ α β : Type} {seed : UInt64} {resolve : Resolver σ}

def generated? (seed : UInt64) (family : Family) (args : List Int) (span : Span) :
    Option Pattern :=
  let first := (args[0]?.getD 0).toNat
  let second := (args[1]?.getD 0).toNat
  match family with
  | .euclidean => do
    let p ← euclidean? first second
    p.rotate? (args[2]?.getD 0)
  | .barlow => preferred? .barlow first second
  | .wolrab => preferred? .wolrab first second
  | .dilcue => dilcue? first second
  | .polygon => polygon? first (args[1]?.getD 0) ((args[2]?.map Int.toNat).getD first)
  | .random => do
    let rng := match args[2]? with
      | some own => Pcg32.ofSeed (.ofInt own)
      | none =>
        callStream seed ('R' :: '(' :: decimal first ++ ',' :: decimal second ++ [')']) span
    let (p, _) ← scatter? first second rng
    return p

def bellGenerated? (seed : UInt64) (steps : Nat) (own : Option UInt64) (span : Span) :
    Option Pattern := do
  let n := clampSteps steps
  let rng := match own with
    | some own => stream own ['R', '(', 'r', ')']
    | none => callStream seed ('R' :: '(' :: 'r' :: ',' :: decimal n ++ [')']) span
  let (p, _) ← bellScatter? n rng
  return p

theorem generated?_eq (seed : UInt64) (family : Family) (args : List Int) (span : Span) :
    generated? seed family args span = some (generated seed family args span) := by
  unfold generated? generated
  cases family with
  | euclidean => exact (Checked.bind_eq (euclidean?_eq _ _) _).trans (Pattern.rotate?_eq _ _)
  | barlow => exact preferred?_eq _ _ _
  | wolrab => exact preferred?_eq _ _ _
  | dilcue => exact dilcue?_eq _ _
  | polygon => exact polygon?_eq _ _ _
  | random =>
    dsimp only
    rw [Checked.bind_eq (scatter?_eq _ _ _)]
    cases args[2]? <;> rfl

theorem bellGenerated?_eq (seed : UInt64) (steps : Nat) (own : Option UInt64) (span : Span) :
    bellGenerated? seed steps own span = some (bellGenerated seed steps own span) := by
  unfold bellGenerated? bellGenerated
  dsimp only
  rw [Checked.bind_eq (bellScatter?_eq _ _)]
  rfl

/-- Evaluation that may stop. -/
abbrev Guarded (σ : Type) := ExceptT NotationError (StateT (EvalState σ) Option)

/-- A step of the machine. -/
def machine (x : Option α) : Guarded σ α := ExceptT.mk fun s => x.map fun a => (.ok a, s)

/-- A step of the evaluation that cannot stop. -/
def carried (x : Eval σ α) : Guarded σ α := ExceptT.mk fun s => some (x.run.run s)

def merged? (span : Span) (x : Option (Except PatternError Pattern)) : Guarded σ Pattern := do
  let r ← machine x
  carried (merged span r)

def quantized? (p : Pattern) (steps : Nat) (clockwise : Bool) (span : Span) :
    Guarded σ Pattern := do
  match ← machine (quantize? p steps clockwise) with
  | .ok q =>
    modify fun s => { s with quantization := some q }
    return q.result
  | .error e => throw ⟨.quantize e, span⟩

namespace Expr

mutual

def pattern? (seed : UInt64) (resolve : Resolver σ) : Expr → Guarded σ Pattern
  | .literal p => pure p
  | .generator family args span => machine (generated? seed family args span)
  | .bell steps own span => machine (bellGenerated? seed steps own span)
  | .accented _ body => body.pattern? seed resolve
  | .quantized body steps clockwise span => do
    Notation.quantized? (← body.pattern? seed resolve) steps clockwise span
  | .progressive suffix body => do
    let base ← body.pattern? seed resolve
    carried (resolved resolve (progressionFor suffix body) base)
  | .combination how left right span => do
    let p ← left.pattern? seed resolve
    let q ← right.pattern? seed resolve
    merged? span (Pattern.combine? how p q)
  | .chain parts span => strung? seed resolve span none parts
  | .invert body => do machine (← body.pattern? seed resolve).invert?
  | .reverse body => do machine (← body.pattern? seed resolve).reverse?
  | .rotate body offset => do machine ((← body.pattern? seed resolve).rotate? offset)
  | .scenes [] => machine (Pattern.rests? 1)
  | .scenes (e :: _) => e.pattern? seed resolve

def strung? (seed : UInt64) (resolve : Resolver σ) (span : Span) (before : Option Pattern) :
    List Expr → Guarded σ Pattern
  | [] => match before with
    | some b => pure b
    | none => machine (Pattern.rests? 1)
  | e :: es => do
    let p ← e.pattern? seed resolve
    let p ← match before with
      | none => pure p
      | some b => merged? span (b.append? p)
    strung? seed resolve span (some p) es

end

def layers? (seed : UInt64) (resolve : Resolver σ) :
    Expr → Guarded σ (Pattern × Option Pattern)
  | .accented accent body => do
    let a ← accent.pattern? seed resolve
    let p ← body.pattern? seed resolve
    return (p, some a)
  | e => return (← e.pattern? seed resolve, none)

/-- The evaluation of an expression by itself, as the machine makes it. -/
def eval? (seed : UInt64) (e : Expr) : Option (Except NotationError Evaluation) := do
  match ← (e.layers? seed atStart).run.run ⟨(), none⟩ with
  | (.ok (p, accent), s) => return .ok ⟨p, accent, s.quantization⟩
  | (.error err, _) => return .error err

end Expr

/-- The machine comes to what the evaluation comes to. -/
def Runs (x? : Guarded σ α) (x : Eval σ α) : Prop := ∀ s, x?.run.run s = some (x.run.run s)

variable {x? : Guarded σ α} {x : Eval σ α} {f? : α → Guarded σ β} {f : α → Eval σ β}

theorem Runs.bind (hx : Runs x? x) (hf : ∀ a, Runs (f? a) (f a)) : Runs (x? >>= f?) (x >>= f) := by
  intro s
  have hbind : (x? >>= f?).run.run s = (do
      match ← x?.run.run s with
      | (.ok a, t) => (f? a).run.run t
      | (.error err, t) => some (.error err, t)) := by
    simp only [ExceptT.run_bind, StateT.run_bind]
    congr 1
    funext ⟨r, t⟩
    cases r <;> rfl
  rw [hbind, Checked.bind_eq (hx s), run_bind]
  rcases x.run.run s with ⟨r, t⟩
  cases r with
  | ok a => exact hf a t
  | error err => rfl

theorem runs_pure (a : α) : Runs (pure a : Guarded σ α) (pure a) := fun _ => rfl

theorem runs_carried (x : Eval σ α) : Runs (carried x) x := fun _ => rfl

theorem runs_machine {a? : Option α} {a : α} (h : a? = some a) :
    Runs (machine a? : Guarded σ α) (pure a) := by
  intro s
  rw [h]
  rfl

theorem runs_merged (span : Span) {x? : Option (Except PatternError Pattern)}
    {x : Except PatternError Pattern} (h : x? = some x) :
    Runs (merged? span x? : Guarded σ Pattern) (merged span x) := by
  intro s
  rw [h]
  rfl

theorem runs_quantized (p : Pattern) (steps : Nat) (clockwise : Bool) (span : Span) :
    Runs (quantized? p steps clockwise span : Guarded σ Pattern)
      (quantized p steps clockwise span) := by
  intro s
  rw [quantized?, quantize?_eq, quantized]
  cases quantize p steps clockwise <;> rfl

namespace Expr

mutual

/-- What an expression is made of is evaluated first, by itself. -/
theorem runs_pattern (seed : UInt64) (resolve : Resolver σ) :
    (e : Expr) → Runs (e.pattern? seed resolve) (e.pattern seed resolve)
  | .literal p => by
    rw [pattern?, pattern]
    exact runs_pure p
  | .generator family args span => by
    rw [pattern?, pattern]
    exact runs_machine (generated?_eq seed family args span)
  | .bell steps own span => by
    rw [pattern?, pattern]
    exact runs_machine (bellGenerated?_eq seed steps own span)
  | .accented _ body => by
    rw [pattern?, pattern]
    exact body.runs_pattern seed resolve
  | .quantized body steps clockwise span => by
    rw [pattern?, pattern]
    exact (body.runs_pattern seed resolve).bind fun p => runs_quantized p steps clockwise span
  | .progressive suffix body => by
    rw [pattern?, pattern]
    exact (body.runs_pattern seed resolve).bind fun base => runs_carried _
  | .combination how left right span => by
    rw [pattern?, pattern]
    exact (left.runs_pattern seed resolve).bind fun p =>
      (right.runs_pattern seed resolve).bind fun q =>
        runs_merged span (Pattern.combine?_eq how p q)
  | .chain parts span => by
    rw [pattern?, pattern]
    exact runs_strung seed resolve span none parts
  | .invert body => by
    rw [pattern?, pattern]
    exact (body.runs_pattern seed resolve).bind fun p => runs_machine p.invert?_eq
  | .reverse body => by
    rw [pattern?, pattern]
    exact (body.runs_pattern seed resolve).bind fun p => runs_machine p.reverse?_eq
  | .rotate body offset => by
    rw [pattern?, pattern]
    exact (body.runs_pattern seed resolve).bind fun p => runs_machine (p.rotate?_eq offset)
  | .scenes [] => by
    rw [pattern?, pattern]
    exact runs_machine (Pattern.rests?_eq 1)
  | .scenes (e :: _) => by
    rw [pattern?, pattern]
    exact e.runs_pattern seed resolve

theorem runs_strung (seed : UInt64) (resolve : Resolver σ) (span : Span)
    (before : Option Pattern) : (parts : List Expr) →
      Runs (strung? seed resolve span before parts) (strung seed resolve span before parts)
  | [] => by
    cases before with
    | none =>
      rw [strung?, strung]
      exact runs_machine (Pattern.rests?_eq 1)
    | some b =>
      rw [strung?, strung]
      exact runs_pure b
  | e :: es => by
    rw [strung?, strung]
    refine (e.runs_pattern seed resolve).bind fun p => ?_
    cases before with
    | none => exact (runs_pure p).bind fun q => runs_strung seed resolve span (some q) es
    | some b =>
      exact (runs_merged span (b.append?_eq p)).bind fun q =>
        runs_strung seed resolve span (some q) es

end

theorem runs_layers (seed : UInt64) (resolve : Resolver σ) (e : Expr) :
    Runs (e.layers? seed resolve) (e.layers seed resolve) := by
  cases e with
  | accented accent body =>
    exact (accent.runs_pattern seed resolve).bind fun a =>
      (body.runs_pattern seed resolve).bind fun p => runs_pure (p, some a)
  | _ => exact (runs_pattern seed resolve _).bind fun p => runs_pure (p, none)

/-- Nothing stops the machine. -/
theorem eval?_eq (seed : UInt64) (e : Expr) : e.eval? seed = some (e.eval seed) := by
  rw [eval?, Checked.bind_eq (e.runs_layers seed atStart _), eval, evalWith]
  rcases (e.layers seed atStart).run.run ⟨(), none⟩ with ⟨r, s⟩
  cases r <;> rfl

end Expr

end Rhythm.Notation
