import Rhythm.Proofs.Generator.Counts
import Rhythm.Proofs.Notation.Checked
import Rhythm.Proofs.Notation.Extent

/-! What can fail in an evaluation is told by the expression alone. The length of every pattern is
known beforehand; what an expression demands of the bound is listed in the order of its evaluation,
and the first demand that cannot be met is the error. -/
namespace Rhythm.Notation

variable {seed : UInt64} {e : Expr} {ds ds' : List Demand} {m n : Nat}

/-- What has to be within the bound. -/
inductive Demand
  /-- The number of steps that a pattern is projected onto. -/
  | target (steps : Nat) (span : Span)
  /-- The common length of two patterns that merge, of which the lengths are given. -/
  | common (left right : Nat) (span : Span)
  /-- The length of a chain up to one of its parts. -/
  | running (length : Nat) (span : Span)

namespace Demand

def span : Demand → Span
  | .target _ span | .common _ _ span | .running _ span => span

def Met : Demand → Prop
  | .target steps _ => 0 < steps ∧ steps ≤ maxSteps
  | .common left right _ => left.lcm right ≤ maxSteps
  | .running length _ => length ≤ maxSteps

instance : DecidablePred Met := fun d => by
  cases d <;> unfold Met <;> infer_instance

/-- The fault where the demand is not met. -/
def fault : Demand → Fault
  | .target steps _ => .quantize (.targetOutOfRange steps)
  | .common left right _ => .pattern (.combinedTooLong (left.lcm right))
  | .running length _ => .pattern (.combinedTooLong length)

def kind : Demand → FaultKind
  | .target .. => .outOfRange
  | .common .. | .running .. => .combinedTooLong

def error (d : Demand) : NotationError := ⟨d.fault, d.span⟩

theorem kind_error (d : Demand) : d.error.kind = d.kind := by cases d <;> rfl

/-- The first demand that is not met. -/
def firstUnmet (ds : List Demand) : Option Demand := ds.find? fun d => !decide d.Met

theorem firstUnmet_isSome : (firstUnmet ds).isSome ↔ ∃ d ∈ ds, ¬ d.Met := by
  simp [firstUnmet]

theorem firstUnmet_append (ds ds' : List Demand) :
    firstUnmet (ds ++ ds') = (firstUnmet ds).or (firstUnmet ds') := List.find?_append

end Demand

namespace Expr

mutual

/-- The length of the pattern, if there is one. -/
def extent : Expr → Nat
  | .literal p => p.length
  | .generator .polygon args _ =>
    clampSteps ((args[2]?.map Int.toNat).getD (args[0]?.getD 0).toNat)
  | .generator _ args _ => clampSteps (args[1]?.getD 0).toNat
  | .bell steps _ _ => clampSteps steps
  | .accented _ body => body.extent
  | .quantized _ steps _ _ => steps
  | .progressive _ body => body.extent
  | .combination _ left right _ => left.extent.lcm right.extent
  | .chain [] _ => 1
  | .chain (e :: es) _ => e.extent + totalExtent es
  | .invert body => body.extent
  | .reverse body => body.extent
  | .rotate body _ => body.extent
  | .scenes [] => 1
  | .scenes (e :: _) => e.extent

def totalExtent : List Expr → Nat
  | [] => 0
  | e :: es => e.extent + totalExtent es

end

mutual

/-- The demands of an expression in the order in which they are made. -/
def demands : Expr → List Demand
  | .literal _ | .generator .. | .bell .. => []
  | .accented _ body => body.demands
  | .quantized body steps _ span => body.demands ++ [.target steps span]
  | .progressive _ body => body.demands
  | .combination _ left right span =>
    left.demands ++ right.demands ++ [.common left.extent right.extent span]
  | .chain [] _ => []
  | .chain (e :: es) span => e.demands ++ runningDemands span e.extent es
  | .invert body => body.demands
  | .reverse body => body.demands
  | .rotate body _ => body.demands
  | .scenes [] => []
  | .scenes (e :: _) => e.demands

/-- The demands of parts that are strung onto so many steps. -/
def runningDemands (span : Span) (before : Nat) : List Expr → List Demand
  | [] => []
  | e :: es =>
    e.demands ++ .running (before + e.extent) span ::
      runningDemands span (before + e.extent) es

end

/-- The accent of an expression. -/
def accent? : Expr → Option Expr
  | .accented accent _ => some accent
  | _ => none

/-- The demands of an expression by itself. Those of its accent come first. -/
def allDemands (e : Expr) : List Demand := (e.accent?.map demands).getD [] ++ e.demands

end Expr

open Demand

/-- From any state an evaluation comes to the error of the first demand that is not met, or else to
a pattern of a length. -/
def Comes (x : Eval Unit Pattern) (ds : List Demand) (n : Nat) : Prop :=
  ∀ s, ∃ t, match firstUnmet ds with
    | some d => x.run.run s = (.error d.error, t)
    | none => ∃ p, x.run.run s = (.ok p, t) ∧ p.length = n

theorem comes_pure {p : Pattern} (h : p.length = n) : Comes (pure p) [] n :=
  fun s => ⟨s, p, rfl, h⟩

theorem Comes.bind {x : Eval Unit Pattern} {k : Pattern → Eval Unit Pattern} (hx : Comes x ds m)
    (hk : ∀ p : Pattern, p.length = m → Comes (k p) ds' n) : Comes (x >>= k) (ds ++ ds') n := by
  intro s
  obtain ⟨t, ht⟩ := hx s
  rw [firstUnmet_append]
  cases hd : firstUnmet ds with
  | some d =>
    rw [hd] at ht
    exact ⟨t, run_bind_error ht k⟩
  | none =>
    rw [hd] at ht
    obtain ⟨p, hp, hlength⟩ := ht
    obtain ⟨u, hu⟩ := hk p hlength t
    refine ⟨u, ?_⟩
    rw [run_bind_ok hp k]
    exact hu

/-- A step that makes one demand. -/
theorem comes_one {x : Eval Unit Pattern} {d : Demand}
    (hmet : d.Met → ∀ s, ∃ p t, x.run.run s = (.ok p, t) ∧ p.length = n)
    (hunmet : ¬ d.Met → ∀ s, x.run.run s = (.error d.error, s)) : Comes x [d] n := by
  intro s
  by_cases h : d.Met
  · have hfirst : firstUnmet [d] = none := by simp [firstUnmet, h]
    obtain ⟨p, t, hp⟩ := hmet h s
    rw [hfirst]
    exact ⟨t, p, hp⟩
  · have hfirst : firstUnmet [d] = some d := by simp [firstUnmet, h]
    rw [hfirst]
    exact ⟨s, hunmet h s⟩

/-- At its start a progression is the pattern that it starts from. -/
theorem comes_resolved {p : Pattern} (progression : Progression) (h : p.length = n) :
    Comes (resolved atStart progression p) [] n :=
  fun s => ⟨s, p, rfl, h⟩

theorem comes_quantized (p : Pattern) (steps : Nat) (clockwise : Bool) (span : Span) :
    Comes (quantized p steps clockwise span) [.target steps span] steps := by
  unfold quantized quantize
  refine comes_one ?_ ?_
  · intro (h : 0 < steps ∧ steps ≤ maxSteps) s
    rw [if_pos h]
    refine ⟨_, _, rfl, ?_⟩
    dsimp only
    split
    · next hsame => exact hsame.symm
    · rw [Pattern.ofOnsets, Pattern.length_tabulate, clampSteps_of_le h.1 h.2]
  · intro (h : ¬ (0 < steps ∧ steps ≤ maxSteps)) s
    rw [if_neg h]
    rfl

theorem comes_combine {p q : Pattern} (how : Merge) (span : Span) (hp : p.length = m)
    (hq : q.length = n) :
    Comes (merged span (Pattern.combine how p q)) [.common m n span] (m.lcm n) := by
  have hpos : 0 < m.lcm n := Nat.lcm_pos (hp ▸ p.length_pos') (hq ▸ q.length_pos')
  unfold Pattern.combine
  rw [hp, hq]
  dsimp only
  refine comes_one ?_ ?_
  · intro (h : m.lcm n ≤ maxSteps) s
    rw [if_pos h]
    refine ⟨_, s, rfl, ?_⟩
    rw [Pattern.length_tabulate, clampSteps_of_le hpos h]
  · intro (h : ¬ m.lcm n ≤ maxSteps) s
    rw [if_neg h]
    rfl

theorem comes_append {p q : Pattern} (span : Span) (hp : p.length = m) (hq : q.length = n) :
    Comes (merged span (p.append q)) [.running (m + n) span] (m + n) := by
  subst hp hq
  unfold Pattern.append
  refine comes_one ?_ ?_
  · intro (h : p.length + q.length ≤ maxSteps) s
    rw [dif_pos h]
    exact ⟨_, s, rfl, List.length_append⟩
  · intro (h : ¬ p.length + q.length ≤ maxSteps) s
    rw [dif_neg h]
    rfl

theorem extent_generated (seed : UInt64) (family : Family) (args : List Int) (span : Span) :
    (generated seed family args span).length = (Expr.generator family args span).extent := by
  cases family with
  | euclidean => exact (Pattern.length_rotate _ _).trans (length_euclidean _ _)
  | barlow => exact length_preferred _ _ _
  | wolrab => exact length_preferred _ _ _
  | dilcue => exact length_dilcue _ _
  | polygon => exact length_polygon _ _ _
  | random =>
    unfold generated
    dsimp only
    cases args[2]? with
    | some own => exact length_scatter _ _ _
    | none => exact length_scatter _ _ _

theorem extent_bellGenerated (seed : UInt64) (steps : Nat) (own : Option UInt64) (span : Span) :
    (bellGenerated seed steps own span).length = (Expr.bell steps own span).extent := by
  unfold bellGenerated bellScatter
  rw [length_drawn]
  exact Pattern.clampSteps_clampSteps steps

theorem Comes.map {x : Eval Unit Pattern} {k : Pattern → Pattern} (hx : Comes x ds n)
    (hk : ∀ p : Pattern, (k p).length = p.length) : Comes (do return k (← x)) ds n := by
  have hbind := hx.bind fun p hp => comes_pure ((hk p).trans hp)
  rwa [List.append_nil] at hbind

namespace Expr

mutual

/-- The parts of an expression make their demands before it makes its own. -/
theorem comes_pattern (seed : UInt64) :
    (e : Expr) → Comes (e.pattern seed atStart) e.demands e.extent
  | .literal p => by
    rw [pattern, demands, extent]
    exact comes_pure rfl
  | .generator family args span => by
    rw [pattern, demands]
    exact comes_pure (extent_generated seed family args span)
  | .bell steps own span => by
    rw [pattern, demands]
    exact comes_pure (extent_bellGenerated seed steps own span)
  | .accented _ body => by
    rw [pattern, demands, extent]
    exact body.comes_pattern seed
  | .quantized body steps clockwise span => by
    rw [pattern, demands, extent]
    exact (body.comes_pattern seed).bind fun p _ => comes_quantized p steps clockwise span
  | .progressive suffix body => by
    rw [pattern, demands, extent, ← List.append_nil body.demands]
    exact (body.comes_pattern seed).bind fun p hp => comes_resolved _ hp
  | .combination how left right span => by
    rw [pattern, demands, extent, List.append_assoc]
    exact (left.comes_pattern seed).bind fun p hp =>
      (right.comes_pattern seed).bind fun q hq => comes_combine how span hp hq
  | .chain [] span => by
    rw [pattern, strung, demands, extent]
    exact comes_pure rfl
  | .chain (e :: es) span => by
    rw [pattern, strung, demands, extent]
    refine (e.comes_pattern seed).bind fun p hp => ?_
    exact comes_strung seed span hp es
  | .invert body => by
    rw [pattern, demands, extent]
    exact (body.comes_pattern seed).map Pattern.length_invert
  | .reverse body => by
    rw [pattern, demands, extent]
    exact (body.comes_pattern seed).map Pattern.length_reverse
  | .rotate body offset => by
    rw [pattern, demands, extent]
    exact (body.comes_pattern seed).map fun p => p.length_rotate offset
  | .scenes [] => by
    rw [pattern, demands, extent]
    exact comes_pure rfl
  | .scenes (e :: _) => by
    rw [pattern, demands, extent]
    exact e.comes_pattern seed

theorem comes_strung (seed : UInt64) (span : Span) {before : Pattern} {n : Nat}
    (hb : before.length = n) : (parts : List Expr) →
      Comes (strung seed atStart span (some before) parts) (runningDemands span n parts)
        (n + totalExtent parts)
  | [] => by
    rw [strung, runningDemands, totalExtent]
    exact comes_pure hb
  | e :: es => by
    rw [strung, runningDemands, totalExtent, ← Nat.add_assoc]
    refine (e.comes_pattern seed).bind fun p hp => ?_
    exact (comes_append span hb hp).bind fun q hq => comes_strung seed span hq es

end

/-- An evaluation comes to the error of the first demand that is not met, or else to a pattern and an
accent of the lengths that the expression tells. -/
def Answers (e : Expr) (r : Except NotationError Evaluation) : Prop :=
  match firstUnmet e.allDemands with
  | some d => r = .error d.error
  | none => ∃ v, r = .ok v ∧ v.pattern.length = e.extent ∧
    v.accent.map (·.length) = e.accent?.map extent

/-- Without an accent the pattern is all there is. -/
theorem answers_of_layers (ha : e.accent? = none)
    (hl : e.layers seed atStart = (do return (← e.pattern seed atStart, none))) :
    e.Answers (e.eval seed) := by
  obtain ⟨t, ht⟩ := e.comes_pattern seed ⟨(), none⟩
  rw [Answers, allDemands, ha, Option.map_none, Option.getD_none, List.nil_append, eval, evalWith,
    hl]
  cases hd : firstUnmet e.demands with
  | some d =>
    rw [hd] at ht
    rw [run_bind_error ht]
  | none =>
    rw [hd] at ht
    obtain ⟨p, hp, hlength⟩ := ht
    rw [run_bind_ok hp]
    exact ⟨_, rfl, hlength, rfl⟩

theorem answers_accented (accent body : Expr) :
    (accented accent body).Answers ((accented accent body).eval seed) := by
  obtain ⟨t, ht⟩ := accent.comes_pattern seed ⟨(), none⟩
  rw [Answers, allDemands, accent?, Option.map_some, Option.getD_some, firstUnmet_append, eval,
    evalWith, layers, demands]
  cases hd : firstUnmet accent.demands with
  | some d =>
    rw [hd] at ht
    rw [run_bind_error ht]
    rfl
  | none =>
    rw [hd] at ht
    obtain ⟨a, ha, hal⟩ := ht
    obtain ⟨u, hu⟩ := body.comes_pattern seed t
    rw [run_bind_ok ha, Option.none_or]
    cases hd' : firstUnmet body.demands with
    | some d =>
      rw [hd'] at hu
      rw [run_bind_error hu]
    | none =>
      rw [hd'] at hu
      obtain ⟨p, hp, hpl⟩ := hu
      rw [run_bind_ok hp]
      refine ⟨_, rfl, ?_, ?_⟩
      · rw [extent]
        exact hpl
      · exact congrArg some hal

theorem answers (seed : UInt64) (e : Expr) : e.Answers (e.eval seed) := by
  cases e with
  | accented accent body => exact answers_accented accent body
  | _ => exact answers_of_layers rfl rfl

theorem fails_iff (seed : UInt64) (e : Expr) :
    (∃ err, e.eval seed = .error err) ↔ ∃ d ∈ e.allDemands, ¬ d.Met := by
  have hanswer := e.answers seed
  rw [Answers] at hanswer
  rw [← firstUnmet_isSome]
  cases hd : firstUnmet e.allDemands with
  | some d =>
    rw [hd] at hanswer
    exact iff_of_true ⟨_, hanswer⟩ rfl
  | none =>
    rw [hd] at hanswer
    obtain ⟨r, hr, -⟩ := hanswer
    rw [hr]
    exact iff_of_false (fun ⟨_, h⟩ => by cases h) Bool.false_ne_true

/-- The machine is never stopped. It fails exactly where a demand is not met, with the error of the
first one, and else it comes to a pattern and an accent within the bound. -/
theorem eval_by_demands (seed : UInt64) (e : Expr) :
    e.eval? seed = some (e.eval seed) ∧
      ((∃ err, e.eval seed = .error err) ↔ ∃ d ∈ e.allDemands, ¬ d.Met) ∧
      match e.eval seed with
      | .error err => ∃ d, firstUnmet e.allDemands = some d ∧ err = d.error ∧ err.kind = d.kind
      | .ok r => r.pattern.length = e.extent ∧
        r.accent.map (·.length) = e.accent?.map extent ∧
        (r.accent.toList ++ [r.pattern]).all fun p => 1 ≤ p.length && p.length ≤ 128 := by
  refine ⟨e.eval?_eq seed, e.fails_iff seed, ?_⟩
  have hanswer := e.answers seed
  rw [Answers] at hanswer
  cases hd : firstUnmet e.allDemands with
  | some d =>
    rw [hd] at hanswer
    rw [hanswer]
    exact ⟨d, rfl, rfl, d.kind_error⟩
  | none =>
    rw [hd] at hanswer
    obtain ⟨r, hr, hpattern, haccent⟩ := hanswer
    rw [hr]
    refine ⟨hpattern, haccent, ?_⟩
    have hbound : ∀ p : Pattern, (1 ≤ p.length && p.length ≤ 128) = true := by
      intro p
      have hpos := p.length_pos'
      have hle := p.length_le'
      simp only [maxSteps] at hle
      simp only [Bool.and_eq_true, decide_eq_true_eq]
      omega
    exact List.all_eq_true.2 fun p _ => hbound p

end Expr

end Rhythm.Notation
