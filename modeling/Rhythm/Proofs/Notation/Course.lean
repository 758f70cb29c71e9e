import Mathlib.Tactic.Choose
import Rhythm.Notation.Eval
import Rhythm.Proofs.Notation.Shape

/-! The evaluation of a scene asks at most once how a progressive expression looks. -/
namespace Rhythm.Notation

/-- A way through an evaluation: it comes to its end by itself, or it asks for a pattern and makes
the result of the answer. -/
inductive Course (α : Type)
  | settled (result : Except NotationError α)
  | asking (progression : Progression) (base : Pattern) (finish : Pattern → α)

variable {σ α β : Type} {seed : UInt64} {e : Expr} {b : Bool}

namespace Course

def run (resolve : Resolver σ) (memory : σ) : Course α → Except NotationError α × σ
  | .settled result => (result, memory)
  | .asking progression base finish =>
    let (p, memory) := resolve progression base memory
    (.ok (finish p), memory)

def map (f : α → β) : Course α → Course β
  | .settled result => .settled (result.map f)
  | .asking progression base finish => .asking progression base fun p => f (finish p)

theorem run_map (f : α → β) (c : Course α) (resolve : Resolver σ) (m : σ) :
    (c.map f).run resolve m = ((c.run resolve m).1.map f, (c.run resolve m).2) := by
  cases c <;> rfl

end Course

theorem run_bind (x : Eval σ α) (f : α → Eval σ β) (s : EvalState σ) :
    (x >>= f).run.run s = match x.run.run s with
      | (.ok a, t) => (f a).run.run t
      | (.error err, t) => (.error err, t) := by
  simp only [ExceptT.run_bind, StateT.run_bind]
  rcases x.run.run s with ⟨r, t⟩
  cases r <;> rfl

variable {x : Eval σ α} {s t : EvalState σ}

theorem run_bind_ok {a : α} (hx : x.run.run s = (.ok a, t)) (f : α → Eval σ β) :
    (x >>= f).run.run s = (f a).run.run t := by
  simp only [run_bind, hx]

theorem run_bind_error {err : NotationError} (hx : x.run.run s = (.error err, t))
    (f : α → Eval σ β) : (x >>= f).run.run s = (.error err, t) := by
  simp only [run_bind, hx]

/-- An evaluation that neither asks nor projects. -/
def Plain (x : ∀ (σ : Type), Resolver σ → Eval σ Pattern) : Prop :=
  ∃ r : Except NotationError Pattern, ∀ (σ : Type) (resolve : Resolver σ) (s : EvalState σ),
    (x σ resolve).run.run s = (r, s)

theorem plain_pure (p : Pattern) : Plain fun _ _ => pure p := ⟨.ok p, fun _ _ _ => rfl⟩

theorem plain_merged (span : Span) (r : Except PatternError Pattern) :
    Plain fun _ _ => merged span r := by
  cases r with
  | ok p => exact ⟨.ok p, fun _ _ _ => rfl⟩
  | error err => exact ⟨.error ⟨.pattern err, span⟩, fun _ _ _ => rfl⟩

theorem plain_bind {x : ∀ (σ : Type), Resolver σ → Eval σ Pattern}
    {f : ∀ (σ : Type), Resolver σ → Pattern → Eval σ Pattern} (hx : Plain x)
    (hf : ∀ p, Plain fun σ resolve => f σ resolve p) :
    Plain fun σ resolve => x σ resolve >>= f σ resolve := by
  obtain ⟨r, hr⟩ := hx
  cases r with
  | error err =>
    refine ⟨.error err, ?_⟩
    intro σ resolve s
    exact run_bind_error (hr σ resolve s) _
  | ok p =>
    obtain ⟨r', hr'⟩ := hf p
    refine ⟨r', ?_⟩
    intro σ resolve s
    exact (run_bind_ok (hr σ resolve s) _).trans (hr' σ resolve s)

theorem plain_strung (span : Span) {parts : List Expr}
    (h : ∀ e ∈ parts, Plain fun _ resolve => e.pattern seed resolve) (before : Option Pattern) :
    Plain fun _ resolve => Expr.strung seed resolve span before parts := by
  induction parts generalizing before with
  | nil =>
    simp only [Expr.strung]
    exact plain_pure _
  | cons e es ih =>
    have hes : ∀ x ∈ es, Plain fun _ resolve => x.pattern seed resolve := by
      intro x hx
      exact h x (List.mem_cons_of_mem _ hx)
    simp only [Expr.strung]
    refine plain_bind (h e (List.mem_cons_self ..)) ?_
    intro p
    cases before with
    | none => exact plain_bind (plain_pure p) fun q => ih hes (some q)
    | some b => exact plain_bind (plain_merged span _) fun q => ih hes (some q)

/-- Chains have no progressive part and no projection in them. -/
theorem plain_of_isChain (seed : UInt64) (h : e.IsChain) :
    Plain fun _ resolve => e.pattern seed resolve := by
  induction h with
  | literal =>
    simp only [Expr.pattern]
    exact plain_pure _
  | generator =>
    simp only [Expr.pattern]
    exact plain_pure _
  | bell =>
    simp only [Expr.pattern]
    exact plain_pure _
  | combination _ _ ihl ihr =>
    simp only [Expr.pattern]
    exact plain_bind ihl fun p => plain_bind ihr fun q => plain_merged ..
  | chain _ ih =>
    simp only [Expr.pattern]
    exact plain_strung _ ih none
  | invert _ ih =>
    simp only [Expr.pattern]
    exact plain_bind ih fun p => plain_pure p.invert
  | reverse _ ih =>
    simp only [Expr.pattern]
    exact plain_bind ih fun p => plain_pure p.reverse

/-- The state in which an evaluation ends that came to a pattern and a last projection. -/
def landed : Except NotationError (Pattern × Option Quantization) × σ →
    Except NotationError Pattern × EvalState σ
  | (.ok (p, quantization), m) => (.ok p, ⟨m, quantization⟩)
  | (.error err, m) => (.error err, ⟨m, none⟩)

/-- The evaluation takes a course, if nothing was projected before. -/
def Expr.Takes (seed : UInt64) (e : Expr) (c : Course (Pattern × Option Quantization)) : Prop :=
  ∀ (σ : Type) (resolve : Resolver σ) (m : σ),
    (e.pattern seed resolve).run.run ⟨m, none⟩ = landed (c.run resolve m)

theorem Expr.Takes.map {x : Expr} {c : Course (Pattern × Option Quantization)}
    (h : x.Takes seed c) (f : Pattern × Option Quantization → Pattern × Option Quantization)
    {k : ∀ (σ : Type), Pattern → Eval σ Pattern}
    (hk : ∀ (σ : Type) (p : Pattern) (q : Option Quantization) (m : σ),
      (k σ p).run.run ⟨m, q⟩ = (.ok (f (p, q)).1, ⟨m, (f (p, q)).2⟩))
    (he : ∀ (σ : Type) (resolve : Resolver σ),
      e.pattern seed resolve = (x.pattern seed resolve >>= k σ)) : e.Takes seed (c.map f) := by
  intro σ resolve m
  rw [he, run_bind, h, Course.run_map]
  rcases c.run resolve m with ⟨r, m'⟩
  cases r with
  | error err => rfl
  | ok a => exact hk σ a.1 a.2 m'

theorem exists_quantize {steps : Nat} (hp : 0 < steps) (hl : steps ≤ maxSteps) (clockwise : Bool)
    (p : Pattern) : ∃ q, quantize p steps clockwise = .ok q := by
  rw [quantize, if_pos ⟨hp, hl⟩]
  exact ⟨_, rfl⟩

/-- A projection onto a possible number of steps does not fail. -/
theorem run_quantized {steps : Nat} (hp : 0 < steps) (hl : steps ≤ maxSteps) (clockwise : Bool)
    (span : Span) : ∃ f : Pattern → Quantization, ∀ (σ : Type) (p : Pattern) (s : EvalState σ),
      (quantized p steps clockwise span).run.run s =
        (.ok (f p).result, { s with quantization := some (f p) }) := by
  choose f hf using exists_quantize hp hl clockwise
  refine ⟨f, ?_⟩
  intro σ p s
  rw [quantized, hf]
  rfl

theorem takes_of_isChain (seed : UInt64) (h : e.IsChain) : ∃ r, e.Takes seed (.settled r) := by
  obtain ⟨r, hr⟩ := plain_of_isChain seed h
  refine ⟨r.map fun p => (p, none), ?_⟩
  intro σ resolve m
  rw [hr]
  cases r <;> rfl

section Tails

variable {body : Expr} {c : Course (Pattern × Option Quantization)}

theorem takes_quantized (h : body.Takes seed c) {steps : Nat} (hp : 0 < steps)
    (hl : steps ≤ maxSteps) (clockwise : Bool) (span : Span) :
    ∃ f, (Expr.quantized body steps clockwise span).Takes seed (c.map f) := by
  obtain ⟨f, hf⟩ := run_quantized hp hl clockwise span
  exact ⟨_, h.map (fun a => ((f a.1).result, some (f a.1))) (fun σ p q m => hf σ p ⟨m, q⟩)
    fun _ _ => by rw [Expr.pattern]⟩

theorem takes_rotate (h : body.Takes seed c) (offset : Int) :
    (Expr.rotate body offset).Takes seed (c.map fun a => (a.1.rotate offset, a.2)) :=
  h.map _ (fun _ _ _ _ => rfl) fun _ _ => by rw [Expr.pattern]

theorem takes_progressive_error (suffix : Suffix) {err : NotationError}
    (h : body.Takes seed (.settled (.error err))) :
    (Expr.progressive suffix body).Takes seed (.settled (.error err)) := by
  intro σ resolve m
  rw [Expr.pattern, run_bind_error (h σ resolve m)]
  rfl

theorem takes_progressive (suffix : Suffix) {a : Pattern × Option Quantization}
    (h : body.Takes seed (.settled (.ok a))) :
    (Expr.progressive suffix body).Takes seed
      (.asking (progressionFor suffix body) a.1 fun p => (p, a.2)) := by
  intro σ resolve m
  rw [Expr.pattern, run_bind_ok (h σ resolve m)]
  rfl

end Tails

theorem takes_of_isBody (seed : UInt64) (h : e.IsBody b) :
    ∃ c, e.Takes seed c ∧ (b = false → ∃ r, c = .settled r) := by
  induction h with
  | chain h =>
    obtain ⟨r, hr⟩ := takes_of_isChain seed h
    exact ⟨_, hr, fun _ => ⟨r, rfl⟩⟩
  | quantized hp hl _ ih =>
    obtain ⟨c, hc, hb⟩ := ih
    obtain ⟨f, hf⟩ := takes_quantized hc hp hl _ _
    refine ⟨_, hf, ?_⟩
    intro hfalse
    obtain ⟨r, rfl⟩ := hb hfalse
    exact ⟨_, rfl⟩
  | rotate _ ih =>
    obtain ⟨c, hc, hb⟩ := ih
    refine ⟨_, takes_rotate hc _, ?_⟩
    intro hfalse
    obtain ⟨r, rfl⟩ := hb hfalse
    exact ⟨_, rfl⟩
  | progressive _ ih =>
    obtain ⟨c, hc, hb⟩ := ih
    obtain ⟨r, rfl⟩ := hb rfl
    cases r with
    | error err => exact ⟨_, takes_progressive_error _ hc, fun _ => ⟨_, rfl⟩⟩
    | ok a => exact ⟨_, takes_progressive _ hc, fun h => Bool.noConfusion h⟩

theorem layers_of_isBody (h : e.IsBody b) (resolve : Resolver σ) :
    e.layers seed resolve = (do return (← e.pattern seed resolve, none)) := by
  cases h with
  | chain h => cases h <;> rw [Expr.layers] <;> simp
  | quantized =>
    rw [Expr.layers]
    simp
  | rotate =>
    rw [Expr.layers]
    simp
  | progressive =>
    rw [Expr.layers]
    simp

theorem evalWith_of_takes {c : Course (Pattern × Option Quantization)} (h : e.IsBody b)
    (hc : e.Takes seed c) (resolve : Resolver σ) (m : σ) :
    e.evalWith seed resolve m = (c.map fun a => ⟨a.1, none, a.2⟩).run resolve m := by
  rw [Expr.evalWith, layers_of_isBody h, run_bind, hc, Course.run_map]
  rcases c.run resolve m with ⟨r, m'⟩
  cases r <;> rfl

theorem eval_of_settled {r : Except NotationError (Pattern × Option Quantization)}
    (h : e.IsBody b) (hr : e.Takes seed (.settled r)) :
    e.eval seed = r.map fun a => ⟨a.1, none, a.2⟩ :=
  congrArg Prod.fst (evalWith_of_takes h hr atStart ())

/-- An accent that comes to a pattern stands beside the pattern of its body. -/
theorem evalWith_accented {accent body : Expr} {p : Pattern}
    {c : Course (Pattern × Option Quantization)}
    (ha : ∀ (σ : Type) (resolve : Resolver σ) (s : EvalState σ),
      (accent.pattern seed resolve).run.run s = (.ok p, s))
    (hc : body.Takes seed c) (resolve : Resolver σ) (m : σ) :
    (Expr.accented accent body).evalWith seed resolve m =
      (c.map fun a => ⟨a.1, some p, a.2⟩).run resolve m := by
  rw [Expr.evalWith, Expr.layers, run_bind_ok (ha σ resolve _), run_bind, hc, Course.run_map]
  rcases c.run resolve m with ⟨r, m'⟩
  cases r <;> rfl

/-- Whoever is asked, and whatever is remembered, a scene is evaluated on one and the same
course. -/
theorem evalWith_course (seed : UInt64) (h : e.IsScene) : ∃ c : Course Evaluation,
    ∀ (σ : Type) (resolve : Resolver σ) (m : σ), e.evalWith seed resolve m = c.run resolve m := by
  cases h with
  | bare h =>
    obtain ⟨c, hc, -⟩ := takes_of_isBody seed h
    exact ⟨_, fun σ => evalWith_of_takes h hc⟩
  | accented ha h =>
    obtain ⟨c, hc, -⟩ := takes_of_isBody seed h
    obtain ⟨r, hr⟩ := plain_of_isChain seed ha
    cases r with
    | error err =>
      refine ⟨.settled (.error err), ?_⟩
      intro σ resolve m
      rw [Expr.evalWith, Expr.layers, run_bind_error (hr σ resolve _)]
      rfl
    | ok p => exact ⟨_, fun σ => evalWith_accented hr hc⟩

end Rhythm.Notation
