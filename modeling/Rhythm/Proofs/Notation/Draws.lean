import Rhythm.Proofs.Notation.Course

/-! Where an evaluation draws from its seed: in random calls without a seed of their own, and
nowhere else. -/
namespace Rhythm.Notation

open Rhythm.Random

variable {σ τ α β : Type} {R : σ → τ → Prop} {seed seed' : UInt64} {resolve : Resolver σ}
  {resolve' : Resolver τ} {test : Expr → Bool} {e : Expr}

namespace Expr

mutual

/-- Whether the expression or some part of it passes a test. -/
def anyPart (test : Expr → Bool) : Expr → Bool
  | .literal p => test (.literal p)
  | .generator family args span => test (.generator family args span)
  | .bell steps own span => test (.bell steps own span)
  | .accented accent body =>
    test (.accented accent body) || accent.anyPart test || body.anyPart test
  | .quantized body steps clockwise span =>
    test (.quantized body steps clockwise span) || body.anyPart test
  | .progressive suffix body => test (.progressive suffix body) || body.anyPart test
  | .combination how left right span =>
    test (.combination how left right span) || left.anyPart test || right.anyPart test
  | .chain parts span => test (.chain parts span) || anyPartOf test parts
  | .invert body => test (.invert body) || body.anyPart test
  | .reverse body => test (.reverse body) || body.anyPart test
  | .rotate body offset => test (.rotate body offset) || body.anyPart test
  | .scenes parts => test (.scenes parts) || anyPartOf test parts

def anyPartOf (test : Expr → Bool) : List Expr → Bool
  | [] => false
  | e :: es => e.anyPart test || anyPartOf test es

end

/-- A random call that has no seed of its own. -/
def isUnseeded : Expr → Bool
  | .generator .random args _ => args[2]?.isNone
  | .bell _ own _ => own.isNone
  | _ => false

/-- A suffix that appends random blocks. -/
def isLengthening : Expr → Bool
  | .progressive (.lengthen _) _ => true
  | _ => false

/-- What is drawn for the seed, now or at a later trigger. -/
def draws (e : Expr) : Bool := e.isUnseeded || e.isLengthening

theorem anyPartOf_eq_false_iff {es : List Expr} :
    anyPartOf test es = false ↔ ∀ e ∈ es, e.anyPart test = false := by
  induction es with
  | nil => simp [anyPartOf]
  | cons e es ih => simp [anyPartOf, ih]

end Expr

/-- Two states of an evaluation with memories of their own kinds. -/
def Matched (R : σ → τ → Prop) (s : EvalState σ) (t : EvalState τ) : Prop :=
  R s.memory t.memory ∧ s.quantization = t.quantization

/-- From states that match, the evaluations come to the same result and to states that match. -/
def Agree (R : σ → τ → Prop) (x : Eval σ α) (y : Eval τ α) : Prop :=
  ∀ s t, Matched R s t →
    (x.run.run s).1 = (y.run.run t).1 ∧ Matched R (x.run.run s).2 (y.run.run t).2

/-- Two resolvers say the same about a progression. -/
def SayTheSame (R : σ → τ → Prop) (resolve : Resolver σ) (resolve' : Resolver τ)
    (progression : Progression) : Prop :=
  ∀ base m m', R m m' →
    (resolve progression base m).1 = (resolve' progression base m').1 ∧
      R (resolve progression base m).2 (resolve' progression base m').2

theorem agree_pure (a : α) : Agree R (pure a) (pure a) := fun _ _ h => ⟨rfl, h⟩

theorem Agree.bind {x : Eval σ α} {y : Eval τ α} {f : α → Eval σ β} {g : α → Eval τ β}
    (h : Agree R x y) (hf : ∀ a, Agree R (f a) (g a)) : Agree R (x >>= f) (y >>= g) := by
  intro s t hst
  obtain ⟨hresult, hstates⟩ := h s t hst
  rw [run_bind, run_bind]
  rcases hx : x.run.run s with ⟨r, s'⟩
  rcases hy : y.run.run t with ⟨r', t'⟩
  rw [hx, hy] at hresult hstates
  obtain rfl : r = r' := hresult
  cases r with
  | error err => exact ⟨rfl, hstates⟩
  | ok a => exact hf a s' t' hstates

theorem agree_merged (span : Span) (r : Except PatternError Pattern) :
    Agree R (merged span r) (merged span r) := by
  cases r with
  | ok p => exact agree_pure p
  | error err => exact fun _ _ h => ⟨rfl, h⟩

theorem agree_quantized (p : Pattern) (steps : Nat) (clockwise : Bool) (span : Span) :
    Agree R (quantized p steps clockwise span) (quantized p steps clockwise span) := by
  unfold quantized
  cases quantize p steps clockwise with
  | ok q => exact fun _ _ h => ⟨rfl, h.1, rfl⟩
  | error err => exact fun _ _ h => ⟨rfl, h⟩

theorem agree_resolved {progression : Progression}
    (h : SayTheSame R resolve resolve' progression) (base : Pattern) :
    Agree R (resolved resolve progression base) (resolved resolve' progression base) := by
  intro s t hst
  obtain ⟨hpattern, hmemory⟩ := h base s.memory t.memory hst.1
  exact ⟨congrArg Except.ok hpattern, hmemory, hst.2⟩

theorem generated_of_seeded (seed seed' : UInt64) {family : Family} {args : List Int} {span : Span}
    (h : (Expr.generator family args span).isUnseeded = false) :
    generated seed family args span = generated seed' family args span := by
  cases family with
  | random =>
    unfold generated
    cases hargs : args[2]? with
    | none =>
      rw [Expr.isUnseeded, hargs] at h
      cases h
    | some own => rfl
  | _ => rfl

theorem bellGenerated_of_seeded (seed seed' : UInt64) {steps : Nat} {own : Option UInt64}
    {span : Span} (h : (Expr.bell steps own span).isUnseeded = false) :
    bellGenerated seed steps own span = bellGenerated seed' steps own span := by
  cases own with
  | none => cases h
  | some own => rfl

namespace Expr

/-- The test finds all by which the evaluations can differ: the random calls without a seed, and the
progressions about which the resolvers do not say the same. -/
structure Covers (test : Expr → Bool) (R : σ → τ → Prop) (resolve : Resolver σ)
    (resolve' : Resolver τ) : Prop where
  unseeded (e : Expr) (h : test e = false) : e.isUnseeded = false
  saying (suffix : Suffix) (body : Expr) (h : test (.progressive suffix body) = false) :
    SayTheSame R resolve resolve' (progressionFor suffix body)

mutual

/-- Without random calls that draw from it, the seed makes no difference, as long as whoever is
asked says the same. -/
theorem agree_pattern (ht : Covers test R resolve resolve') : (e : Expr) → e.anyPart test = false →
    Agree R (e.pattern seed resolve) (e.pattern seed' resolve')
  | .literal p, _ => by
    rw [pattern, pattern]
    exact agree_pure p
  | .generator family args span, h => by
    rw [anyPart] at h
    rw [pattern, pattern, generated_of_seeded seed seed' (ht.unseeded _ h)]
    exact agree_pure _
  | .bell steps own span, h => by
    rw [anyPart] at h
    rw [pattern, pattern, bellGenerated_of_seeded seed seed' (ht.unseeded _ h)]
    exact agree_pure _
  | .accented accent body, h => by
    simp only [anyPart, Bool.or_eq_false_iff] at h
    rw [pattern, pattern]
    exact body.agree_pattern ht h.2
  | .quantized body steps clockwise span, h => by
    simp only [anyPart, Bool.or_eq_false_iff] at h
    rw [pattern, pattern]
    exact (body.agree_pattern ht h.2).bind fun p => agree_quantized p steps clockwise span
  | .progressive suffix body, h => by
    simp only [anyPart, Bool.or_eq_false_iff] at h
    rw [pattern, pattern]
    exact (body.agree_pattern ht h.2).bind fun p => agree_resolved (ht.saying suffix body h.1) p
  | .combination how left right span, h => by
    simp only [anyPart, Bool.or_eq_false_iff] at h
    rw [pattern, pattern]
    exact (left.agree_pattern ht h.1.2).bind fun p =>
      (right.agree_pattern ht h.2).bind fun q => agree_merged span _
  | .chain parts span, h => by
    simp only [anyPart, Bool.or_eq_false_iff] at h
    rw [pattern, pattern]
    exact agree_strung ht span none parts h.2
  | .invert body, h => by
    simp only [anyPart, Bool.or_eq_false_iff] at h
    rw [pattern, pattern]
    exact (body.agree_pattern ht h.2).bind fun p => agree_pure p.invert
  | .reverse body, h => by
    simp only [anyPart, Bool.or_eq_false_iff] at h
    rw [pattern, pattern]
    exact (body.agree_pattern ht h.2).bind fun p => agree_pure p.reverse
  | .rotate body offset, h => by
    simp only [anyPart, Bool.or_eq_false_iff] at h
    rw [pattern, pattern]
    exact (body.agree_pattern ht h.2).bind fun p => agree_pure (p.rotate offset)
  | .scenes [], _ => by
    rw [pattern, pattern]
    exact agree_pure _
  | .scenes (e :: es), h => by
    simp only [anyPart, anyPartOf, Bool.or_eq_false_iff] at h
    rw [pattern, pattern]
    exact e.agree_pattern ht h.2.1

theorem agree_strung (ht : Covers test R resolve resolve') (span : Span)
    (before : Option Pattern) : (parts : List Expr) → anyPartOf test parts = false →
    Agree R (strung seed resolve span before parts) (strung seed' resolve' span before parts)
  | [], _ => by
    rw [strung, strung]
    exact agree_pure _
  | e :: es, h => by
    simp only [anyPartOf, Bool.or_eq_false_iff] at h
    rw [strung, strung]
    refine (e.agree_pattern ht h.1).bind fun p => ?_
    cases before with
    | none => exact (agree_pure p).bind fun q => agree_strung ht span (some q) es h.2
    | some b => exact (agree_merged span _).bind fun q => agree_strung ht span (some q) es h.2

end

theorem agree_layers (ht : Covers test R resolve resolve') (h : e.anyPart test = false) :
    Agree R (e.layers seed resolve) (e.layers seed' resolve') := by
  cases e with
  | accented accent body =>
    simp only [anyPart, Bool.or_eq_false_iff] at h
    rw [layers, layers]
    exact (accent.agree_pattern ht h.1.2).bind fun a =>
      (body.agree_pattern ht h.2).bind fun p => agree_pure (p, some a)
  | _ => exact (agree_pattern ht _ h).bind fun p => agree_pure (p, none)

theorem evalWith_agree (seed seed' : UInt64) (ht : Covers test R resolve resolve')
    (h : e.anyPart test = false) {m : σ} {m' : τ} (hm : R m m') :
    (e.evalWith seed resolve m).1 = (e.evalWith seed' resolve' m').1 ∧
      R (e.evalWith seed resolve m).2 (e.evalWith seed' resolve' m').2 := by
  obtain ⟨hresult, hstates⟩ := agree_layers ht h ⟨m, none⟩ ⟨m', none⟩ ⟨hm, rfl⟩
  unfold evalWith
  rcases hx : (e.layers seed resolve).run.run ⟨m, none⟩ with ⟨r, s⟩
  rcases hy : (e.layers seed' resolve').run.run ⟨m', none⟩ with ⟨r', t⟩
  rw [hx, hy] at hresult hstates
  obtain rfl : r = r' := hresult
  cases r with
  | error err => exact ⟨rfl, hstates.1⟩
  | ok layers =>
    obtain ⟨hmemory, hquantization⟩ : R s.memory t.memory ∧ s.quantization = t.quantization :=
      hstates
    refine ⟨?_, hmemory⟩
    dsimp only
    rw [hquantization]

/-- By itself an expression asks nobody. -/
theorem eval_eq_of_seeded (ht : ∀ e : Expr, test e = false → e.isUnseeded = false)
    (h : e.anyPart test = false) (seed seed' : UInt64) : e.eval seed = e.eval seed' := by
  have hcovers : Covers test (fun _ _ => True) atStart atStart :=
    ⟨ht, fun _ _ _ _ _ _ _ => ⟨rfl, trivial⟩⟩
  exact (evalWith_agree seed seed' hcovers h trivial).1

end Expr

end Rhythm.Notation
