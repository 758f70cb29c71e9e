import Rhythm.Proofs.Generator.Random
import Rhythm.Proofs.Notation.Course
import Rhythm.Proofs.Notation.Shifting

/-! Random calls are told apart by their places, but neither the length of what they draw nor
whether a pattern can be made of it depends on the place. -/
namespace Rhythm.Notation

open Rhythm.Random

variable {σ : Type} {seed : UInt64} {e : Expr} {b : Bool} {n : Nat}

theorem length_generated (seed : UInt64) (family : Family) (args : List Int) (s t : Span) :
    (generated seed family args s).length = (generated seed family args t).length := by
  cases family with
  | random =>
    unfold generated
    dsimp only
    cases args[2]? with
    | some own => rfl
    | none => rw [length_scatter, length_scatter]
  | _ => rfl

theorem length_bellGenerated (seed : UInt64) (steps : Nat) (own : Option UInt64) (s t : Span) :
    (bellGenerated seed steps own s).length = (bellGenerated seed steps own t).length := by
  unfold bellGenerated bellScatter
  rw [length_drawn, length_drawn]

/-- Two results come to patterns of one length, or neither comes to one. -/
def SameExtent : Except NotationError Pattern → Except NotationError Pattern → Prop
  | .ok p, .ok q => p.length = q.length
  | .error _, .error _ => True
  | _, _ => False

/-- Two evaluations neither ask nor project, and come to results of the same extent. -/
def Alike (x y : ∀ (σ : Type), Resolver σ → Eval σ Pattern) : Prop :=
  ∃ r r', (∀ (σ : Type) (resolve : Resolver σ) (s : EvalState σ),
      (x σ resolve).run.run s = (r, s) ∧ (y σ resolve).run.run s = (r', s)) ∧ SameExtent r r'

theorem alike_pure {p q : Pattern} (h : p.length = q.length) :
    Alike (fun _ _ => pure p) (fun _ _ => pure q) :=
  ⟨.ok p, .ok q, fun _ _ _ => ⟨rfl, rfl⟩, h⟩

theorem alike_merged (s t : Span) {x y : Except PatternError Pattern}
    (h : ∀ span, SameExtent (x.mapError (⟨.pattern ·, span⟩)) (y.mapError (⟨.pattern ·, span⟩))) :
    Alike (fun _ _ => merged s x) (fun _ _ => merged t y) := by
  have hs := h s
  cases x with
  | ok p =>
    cases y with
    | ok q => exact ⟨.ok p, .ok q, fun _ _ _ => ⟨rfl, rfl⟩, hs⟩
    | error err => exact hs.elim
  | error err =>
    cases y with
    | ok q => exact hs.elim
    | error err' =>
      exact ⟨.error ⟨.pattern err, s⟩, .error ⟨.pattern err', t⟩, fun _ _ _ => ⟨rfl, rfl⟩, trivial⟩

theorem alike_bind {x y : ∀ (σ : Type), Resolver σ → Eval σ Pattern}
    {f g : ∀ (σ : Type), Resolver σ → Pattern → Eval σ Pattern} (h : Alike x y)
    (hfg : ∀ p q : Pattern, p.length = q.length →
      Alike (fun σ resolve => f σ resolve p) (fun σ resolve => g σ resolve q)) :
    Alike (fun σ resolve => x σ resolve >>= f σ resolve)
      (fun σ resolve => y σ resolve >>= g σ resolve) := by
  obtain ⟨r, r', hr, hsame⟩ := h
  cases r with
  | error err =>
    cases r' with
    | ok q => exact hsame.elim
    | error err' =>
      refine ⟨.error err, .error err', ?_, trivial⟩
      intro σ resolve s
      exact ⟨run_bind_error (hr σ resolve s).1 _, run_bind_error (hr σ resolve s).2 _⟩
  | ok p =>
    cases r' with
    | error err' => exact hsame.elim
    | ok q =>
      obtain ⟨z, z', hz, hsame'⟩ := hfg p q hsame
      refine ⟨z, z', ?_, hsame'⟩
      intro σ resolve s
      exact ⟨(run_bind_ok (hr σ resolve s).1 _).trans (hz σ resolve s).1,
        (run_bind_ok (hr σ resolve s).2 _).trans (hz σ resolve s).2⟩

variable {p p' q q' : Pattern}

theorem alike_combine (how : Merge) (s t : Span) (hp : p.length = p'.length)
    (hq : q.length = q'.length) : Alike (fun _ _ => merged s (Pattern.combine how p q))
      (fun _ _ => merged t (Pattern.combine how p' q')) := by
  refine alike_merged s t fun span => ?_
  simp only [Pattern.combine, hp, hq]
  split
  · exact (Pattern.length_tabulate _ _).trans (Pattern.length_tabulate _ _).symm
  · trivial

theorem alike_append (s t : Span) (hp : p.length = p'.length) (hq : q.length = q'.length) :
    Alike (fun _ _ => merged s (p.append q)) (fun _ _ => merged t (p'.append q')) := by
  refine alike_merged s t fun span => ?_
  simp only [Pattern.append, hp, hq]
  split
  · change (p.steps ++ q.steps).length = (p'.steps ++ q'.steps).length
    rw [List.length_append, List.length_append]
    exact congrArg₂ (· + ·) hp hq
  · trivial

theorem alike_strung (s : Span) (n : Nat) {parts : List Expr}
    (h : ∀ e ∈ parts, Alike (fun _ resolve => e.pattern seed resolve)
      (fun _ resolve => (e.shift n).pattern seed resolve))
    {before before' : Option Pattern} (hb : before.map (·.length) = before'.map (·.length)) :
    Alike (fun _ resolve => Expr.strung seed resolve s before parts)
      (fun _ resolve => Expr.strung seed resolve (s.shift n) before' (parts.map (·.shift n))) := by
  induction parts generalizing before before' with
  | nil =>
    simp only [List.map_nil, Expr.strung]
    refine alike_pure ?_
    cases before with
    | none =>
      cases before' with
      | none => rfl
      | some b' => cases hb
    | some b =>
      cases before' with
      | none => cases hb
      | some b' => exact Option.some.inj hb
  | cons e es ih =>
    have hes : ∀ x ∈ es, Alike (fun _ resolve => x.pattern seed resolve)
        (fun _ resolve => (x.shift n).pattern seed resolve) := by
      intro x hx
      exact h x (List.mem_cons_of_mem _ hx)
    simp only [List.map_cons, Expr.strung]
    refine alike_bind (h e (List.mem_cons_self ..)) ?_
    intro p q hpq
    cases before with
    | none =>
      cases before' with
      | none => exact alike_bind (alike_pure hpq) fun _ _ hl => ih hes (congrArg some hl)
      | some b' => cases hb
    | some b =>
      cases before' with
      | none => cases hb
      | some b' =>
        exact alike_bind (alike_append _ _ (Option.some.inj hb) hpq)
          fun _ _ hl => ih hes (congrArg some hl)

theorem alike_of_isChain (seed : UInt64) (n : Nat) (h : e.IsChain) :
    Alike (fun _ resolve => e.pattern seed resolve)
      (fun _ resolve => (e.shift n).pattern seed resolve) := by
  induction h with
  | literal =>
    simp only [Expr.shift, Expr.pattern]
    exact alike_pure rfl
  | generator =>
    simp only [Expr.shift, Expr.pattern]
    exact alike_pure (length_generated ..)
  | bell =>
    simp only [Expr.shift, Expr.pattern]
    exact alike_pure (length_bellGenerated ..)
  | combination _ _ ihl ihr =>
    simp only [Expr.shift, Expr.pattern]
    exact alike_bind ihl fun _ _ hp => alike_bind ihr fun _ _ hq => alike_combine _ _ _ hp hq
  | chain _ ih =>
    simp only [Expr.shift, Expr.pattern, shiftAll_eq_map]
    exact alike_strung _ n ih rfl
  | invert _ ih =>
    simp only [Expr.shift, Expr.pattern]
    refine alike_bind ih fun p q hl => alike_pure ?_
    simpa [Pattern.invert, Pattern.length] using hl
  | reverse _ ih =>
    simp only [Expr.shift, Expr.pattern]
    refine alike_bind ih fun p q hl => alike_pure ?_
    simpa [Pattern.reverse, Pattern.length] using hl

theorem isChain_shift (n : Nat) (h : e.IsChain) : (e.shift n).IsChain := by
  induction h with
  | literal => exact .literal
  | generator h => exact .generator h
  | bell => exact .bell
  | combination _ _ ihl ihr => exact .combination ihl ihr
  | chain _ ih =>
    rw [Expr.shift, shiftAll_eq_map]
    refine .chain ?_
    intro x hx
    obtain ⟨y, hy, rfl⟩ := List.mem_map.1 hx
    exact ih y hy
  | invert _ ih => exact .invert ih
  | reverse _ ih => exact .reverse ih

theorem isBody_shift (n : Nat) (h : e.IsBody b) : (e.shift n).IsBody b := by
  induction h with
  | chain h => exact .chain (isChain_shift n h)
  | quantized hp hl _ ih => exact .quantized hp hl ih
  | rotate _ ih => exact .rotate ih
  | progressive _ ih => exact .progressive ih

theorem not_exists_ok {ε α : Type} {x : ε} : ¬ ∃ a : α, (.error x : Except ε α) = .ok a := by
  rintro ⟨a, h⟩
  cases h

theorem not_exists_ok_and {ε α : Type} {x : ε} {q : α → Prop} :
    ¬ ∃ a : α, (.error x : Except ε α) = .ok a ∧ q a := by
  rintro ⟨a, h, -⟩
  cases h

theorem not_exists_pattern {x : NotationError} {s : EvalState σ} :
    ¬ ∃ (p : Pattern) (t : EvalState σ),
      ((.error x : Except NotationError Pattern), s) = (.ok p, t) := by
  rintro ⟨p, t, h⟩
  cases h

/-- From a state, an evaluation comes to a pattern. -/
def Succeeds (x : Eval σ Pattern) (s : EvalState σ) : Prop := ∃ p t, x.run.run s = (.ok p, t)

theorem succeeds_bind {x : Eval σ Pattern} {k : Pattern → Eval σ Pattern}
    (hk : ∀ p t, Succeeds (k p) t) (s : EvalState σ) :
    Succeeds (x >>= k) s ↔ Succeeds x s := by
  unfold Succeeds
  rw [run_bind]
  rcases x.run.run s with ⟨r, t⟩
  cases r with
  | ok p => exact iff_of_true (hk p t) ⟨p, t, rfl⟩
  | error err => exact iff_of_false not_exists_pattern not_exists_pattern

theorem succeeds_quantized {steps : Nat} (hp : 0 < steps) (hl : steps ≤ maxSteps)
    (clockwise : Bool) (span : Span) (p : Pattern) (s : EvalState σ) :
    Succeeds (quantized p steps clockwise span) s := by
  obtain ⟨f, hf⟩ := run_quantized hp hl clockwise span
  exact ⟨_, _, hf σ p s⟩

theorem succeeds_shift (seed : UInt64) (n : Nat) (h : e.IsBody b) (s : EvalState Unit) :
    Succeeds ((e.shift n).pattern seed atStart) s ↔ Succeeds (e.pattern seed atStart) s := by
  induction h with
  | chain h =>
    obtain ⟨r, r', hr, hsame⟩ := alike_of_isChain seed n h
    unfold Succeeds
    rw [(hr Unit atStart s).1, (hr Unit atStart s).2]
    cases r with
    | ok p =>
      cases r' with
      | ok q => exact iff_of_true ⟨q, s, rfl⟩ ⟨p, s, rfl⟩
      | error err => exact hsame.elim
    | error err =>
      cases r' with
      | ok q => exact hsame.elim
      | error err' => exact iff_of_false not_exists_pattern not_exists_pattern
  | quantized hp hl _ ih =>
    rw [Expr.shift, Expr.pattern, Expr.pattern, succeeds_bind (succeeds_quantized hp hl _ _),
      succeeds_bind (succeeds_quantized hp hl _ _), ih]
  | rotate _ ih =>
    rw [Expr.shift, Expr.pattern, Expr.pattern]
    exact (succeeds_bind (fun _ _ => ⟨_, _, rfl⟩) s).trans
      (ih.trans (succeeds_bind (fun _ _ => ⟨_, _, rfl⟩) s).symm)
  | progressive _ ih =>
    rw [Expr.shift, Expr.pattern, Expr.pattern]
    exact (succeeds_bind (fun _ _ => ⟨_, _, rfl⟩) s).trans
      (ih.trans (succeeds_bind (fun _ _ => ⟨_, _, rfl⟩) s).symm)

/-- The expression can be evaluated. Who is asked, what is remembered and where the expression
stands make no difference. -/
def Expr.Evaluable (seed : UInt64) (e : Expr) : Prop := ∃ r, e.eval seed = .ok r

theorem evalWith_eq_ok_iff (h : e.IsScene) (resolve : Resolver σ) (m : σ) :
    (∃ r, (e.evalWith seed resolve m).1 = .ok r) ↔ e.Evaluable seed := by
  obtain ⟨c, hc⟩ := evalWith_course seed h
  rw [Expr.Evaluable, Expr.eval, hc, hc]
  cases c with
  | settled r => exact Iff.rfl
  | asking progression base finish => exact iff_of_true ⟨_, rfl⟩ ⟨_, rfl⟩

theorem evaluable_of_isBody (h : e.IsBody b) :
    e.Evaluable seed ↔ Succeeds (e.pattern seed atStart) ⟨(), none⟩ := by
  rw [Expr.Evaluable, Expr.eval, Expr.evalWith, layers_of_isBody h, run_bind, Succeeds]
  rcases (e.pattern seed atStart).run.run ⟨(), none⟩ with ⟨r, t⟩
  cases r with
  | ok p => exact iff_of_true ⟨_, rfl⟩ ⟨p, t, rfl⟩
  | error err => exact iff_of_false not_exists_ok not_exists_pattern

theorem evaluable_accented {a : Expr} (ha : a.IsChain) :
    (Expr.accented a e).Evaluable seed ↔
      Succeeds (a.pattern seed atStart) ⟨(), none⟩ ∧
        Succeeds (e.pattern seed atStart) ⟨(), none⟩ := by
  obtain ⟨r, hr⟩ := plain_of_isChain seed ha
  rw [Expr.Evaluable, Expr.eval, Expr.evalWith, Expr.layers, run_bind, Succeeds, Succeeds, hr]
  cases r with
  | error err => exact iff_of_false not_exists_ok fun h => not_exists_pattern h.1
  | ok p =>
    dsimp only
    rw [run_bind]
    rcases (e.pattern seed atStart).run.run ⟨(), none⟩ with ⟨r, t⟩
    cases r with
    | ok q => exact iff_of_true ⟨_, rfl⟩ ⟨⟨p, _, rfl⟩, q, t, rfl⟩
    | error err => exact iff_of_false not_exists_ok fun h => not_exists_pattern h.2

theorem evaluable_shift (seed : UInt64) (n : Nat) (h : e.IsScene) :
    (e.shift n).Evaluable seed ↔ e.Evaluable seed := by
  cases h with
  | bare h =>
    rw [evaluable_of_isBody h, evaluable_of_isBody (isBody_shift n h), succeeds_shift seed n h]
  | accented ha h =>
    rw [Expr.shift, evaluable_accented ha, evaluable_accented (isChain_shift n ha),
      succeeds_shift seed n h, succeeds_shift seed n (.chain ha)]

end Rhythm.Notation
