import Rhythm.Performance
import Rhythm.Proofs.Notation.Course

/-! The places in an expression. Whatever fails in an evaluation points at one of them. -/
namespace Rhythm.Notation

open Rhythm.Random

namespace Expr

mutual

/-- The places in an expression. -/
def spans : Expr → List Span
  | .literal _ => []
  | .generator _ _ span => [span]
  | .bell _ _ span => [span]
  | .accented accent body => accent.spans ++ body.spans
  | .quantized body _ _ span => span :: body.spans
  | .progressive _ body => body.spans
  | .combination _ left right span => span :: (left.spans ++ right.spans)
  | .chain parts span => span :: spansAll parts
  | .invert body => body.spans
  | .reverse body => body.spans
  | .rotate body _ => body.spans
  | .scenes parts => spansAll parts

def spansAll : List Expr → List Span
  | [] => []
  | e :: es => e.spans ++ spansAll es

end

theorem spansAll_eq_flatMap (es : List Expr) : spansAll es = es.flatMap spans := by
  induction es with
  | nil => rw [spansAll, List.flatMap_nil]
  | cons e es ih => rw [spansAll, List.flatMap_cons, ih]

end Expr

variable {σ α β : Type} {places places' : List Span} {seed : UInt64} {e : Expr} {span : Span}

/-- An evaluation that fails points at one of the given places. -/
def Blames (x : Eval σ α) (places : List Span) : Prop :=
  ∀ s err t, x.run.run s = (.error err, t) → err.span ∈ places

theorem Blames.mono {x : Eval σ α} (h : Blames x places) (hs : places ⊆ places') :
    Blames x places' := fun s err t hx => hs (h s err t hx)

theorem blames_pure (a : α) : Blames (pure a : Eval σ α) places := by
  intro s err t h
  cases h

theorem Blames.bind {x : Eval σ α} {k : α → Eval σ β} (hx : Blames x places)
    (hk : ∀ a, Blames (k a) places) : Blames (x >>= k) places := by
  intro s err t h
  rw [run_bind] at h
  split at h
  · next a u _ => exact hk a u err t h
  · next err' u hu =>
    cases h
    exact hx s _ _ hu

theorem blames_merged (h : span ∈ places) (r : Except PatternError Pattern) :
    Blames (merged span r : Eval σ Pattern) places := by
  intro s err t hr
  cases r <;> cases hr
  exact h

theorem blames_quantized (h : span ∈ places) (p : Pattern) (steps : Nat) (clockwise : Bool) :
    Blames (quantized p steps clockwise span : Eval σ Pattern) places := by
  intro s err t hr
  unfold quantized at hr
  cases hq : quantize p steps clockwise with
  | ok q =>
    rw [hq] at hr
    cases hr
  | error e =>
    rw [hq] at hr
    cases hr
    exact h

theorem blames_resolved (resolve : Resolver σ) (progression : Progression) (base : Pattern) :
    Blames (resolved resolve progression base) places := by
  intro s err t h
  cases h

namespace Expr

mutual

theorem blames_pattern (seed : UInt64) (resolve : Resolver σ) :
    (e : Expr) → Blames (e.pattern seed resolve) e.spans
  | .literal p => by
    rw [pattern]
    exact blames_pure p
  | .generator family args span => by
    rw [pattern]
    exact blames_pure _
  | .bell steps own span => by
    rw [pattern]
    exact blames_pure _
  | .accented accent body => by
    rw [pattern, spans]
    exact (body.blames_pattern seed resolve).mono (List.subset_append_right _ _)
  | .quantized body steps clockwise span => by
    rw [pattern, spans]
    refine ((body.blames_pattern seed resolve).mono (List.subset_cons_self _ _)).bind fun p => ?_
    exact blames_quantized List.mem_cons_self p steps clockwise
  | .progressive suffix body => by
    rw [pattern, spans]
    exact (body.blames_pattern seed resolve).bind fun p => blames_resolved resolve _ p
  | .combination how left right span => by
    rw [pattern, spans]
    have hleft := (left.blames_pattern seed resolve).mono
      (List.Subset.trans (List.subset_append_left _ right.spans) (List.subset_cons_self span _))
    have hright := (right.blames_pattern seed resolve).mono
      (List.Subset.trans (List.subset_append_right left.spans _) (List.subset_cons_self span _))
    refine hleft.bind fun p => hright.bind fun q => ?_
    exact blames_merged List.mem_cons_self _
  | .chain parts span => by
    rw [pattern, spans]
    exact blames_strung seed resolve span none parts
  | .invert body => by
    rw [pattern, spans]
    exact (body.blames_pattern seed resolve).bind fun p => blames_pure _
  | .reverse body => by
    rw [pattern, spans]
    exact (body.blames_pattern seed resolve).bind fun p => blames_pure _
  | .rotate body offset => by
    rw [pattern, spans]
    exact (body.blames_pattern seed resolve).bind fun p => blames_pure _
  | .scenes [] => by
    rw [pattern]
    exact blames_pure _
  | .scenes (e :: es) => by
    rw [pattern, spans, spansAll]
    exact (e.blames_pattern seed resolve).mono (List.subset_append_left _ _)

theorem blames_strung (seed : UInt64) (resolve : Resolver σ) (span : Span)
    (before : Option Pattern) : (parts : List Expr) →
      Blames (strung seed resolve span before parts) (span :: spansAll parts)
  | [] => by
    rw [strung]
    exact blames_pure _
  | e :: es => by
    rw [strung, spansAll]
    have hfirst := (e.blames_pattern seed resolve).mono
      (List.Subset.trans (List.subset_append_left _ (spansAll es)) (List.subset_cons_self span _))
    have hothers : ∀ p, Blames (strung seed resolve span (some p) es)
        (span :: (e.spans ++ spansAll es)) := by
      intro p
      refine (blames_strung seed resolve span (some p) es).mono ?_
      exact List.cons_subset_cons span (List.subset_append_right _ _)
    refine hfirst.bind fun p => ?_
    cases before with
    | none => exact (blames_pure p).bind hothers
    | some b => exact (blames_merged List.mem_cons_self _).bind hothers

end

theorem blames_layers (seed : UInt64) (resolve : Resolver σ) (e : Expr) :
    Blames (e.layers seed resolve) e.spans := by
  cases e with
  | accented accent body =>
    rw [layers, spans]
    have haccent := (accent.blames_pattern seed resolve).mono
      (List.subset_append_left _ body.spans)
    have hbody := (body.blames_pattern seed resolve).mono
      (List.subset_append_right accent.spans _)
    exact haccent.bind fun a => hbody.bind fun p => blames_pure _
  | _ => exact (blames_pattern seed resolve _).bind fun p => blames_pure _

/-- An evaluation that fails points at a place in the expression. -/
theorem span_mem_of_evalWith {resolve : Resolver σ} {m : σ} {err : NotationError}
    (h : (e.evalWith seed resolve m).1 = .error err) : err.span ∈ e.spans := by
  unfold evalWith at h
  split at h
  · cases h
  · next err' s hs =>
    cases h
    exact e.blames_layers seed resolve _ _ _ hs

/-- The scenes that take turns have no other places in them. -/
theorem spans_subset_of_parts {part : Expr} (h : part ∈ Performance.parts e) :
    part.spans ⊆ e.spans := by
  unfold Performance.parts at h
  split at h
  · next first others =>
    rw [spans, spansAll_eq_flatMap]
    exact fun s hs => List.mem_flatMap.2 ⟨part, h, hs⟩
  · rw [List.mem_singleton.1 h]
    exact List.Subset.refl _

end Expr

end Rhythm.Notation
