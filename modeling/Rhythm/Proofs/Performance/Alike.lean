import Rhythm.Proofs.Notation.Draws
import Rhythm.Proofs.Performance.Round
import Rhythm.Proofs.Store.Alike

/-! Two performances that differ in their seeds alone go on alike, as long as nothing in them draws
from a seed. -/
namespace Rhythm

open Notation Rhythm.Random

variable {seed seed' : UInt64}

namespace Evolution

/-- The evolutions agree in all but their seeds and what they will draw, and neither draws. -/
structure Alike (e d : Evolution) : Prop where
  base_eq : e.base = d.base
  progression_eq : e.progression = d.progression
  current_eq : e.current = d.current
  offset_eq : e.offset = d.offset
  onsets_eq : e.onsets = d.onsets
  triggers_eq : e.triggers = d.triggers
  fixed (block : Nat) : e.progression ≠ .lengthen block

variable {e d : Evolution}

theorem alike_start (base : Pattern) {progression : Progression}
    (h : ∀ block, progression ≠ .lengthen block) (seed seed' : UInt64) :
    Alike (start base progression seed) (start base progression seed') :=
  ⟨rfl, rfl, rfl, rfl, rfl, rfl, h⟩

theorem alike_advance (h : Alike e d) : Alike e.advance d.advance := by
  obtain ⟨base, progression, seed, current, offset, onsets, triggers, rng⟩ := e
  obtain ⟨base', progression', seed', current', offset', onsets', triggers', rng'⟩ := d
  obtain ⟨rfl, rfl, rfl, rfl, rfl, rfl, hfixed⟩ := h
  cases progression with
  | offset step =>
    unfold advance turn
    dsimp only
    split
    · exact ⟨rfl, rfl, rfl, rfl, rfl, rfl, hfixed⟩
    · exact ⟨rfl, rfl, rfl, rfl, rfl, rfl, hfixed⟩
  | lengthen block => exact absurd rfl (hfixed block)
  | transform target strategy =>
    unfold advance approach
    dsimp only
    split
    · exact ⟨rfl, rfl, rfl, rfl, rfl, rfl, hfixed⟩
    · exact ⟨rfl, rfl, rfl, rfl, rfl, rfl, hfixed⟩

theorem alike_reset (h : Alike e d) : Alike e.reset d.reset := by
  unfold reset
  rw [← h.base_eq, ← h.progression_eq]
  exact alike_start e.base h.fixed e.seed d.seed

end Evolution

theorem progressionFor_ne_lengthen {suffix : Suffix} {body : Expr}
    (h : (Expr.progressive suffix body).isLengthening = false) (block : Nat) :
    progressionFor suffix body ≠ .lengthen block := by
  cases suffix with
  | offset step => exact nofun
  | lengthen block' => cases h
  | transform target family =>
    unfold progressionFor
    dsimp only
    split <;> exact nofun

namespace Scene

/-- Scenes of one expression, in which nothing is drawn, with evolutions alike. -/
structure Alike (s t : Scene) : Prop where
  expr_eq : s.expr = t.expr
  fixed : s.expr.anyPart Expr.draws = false
  evolution : Option.Rel Evolution.Alike s.evolution t.evolution

variable {s t : Scene}

theorem resolver_alike (own own' : UInt64) {progression : Progression}
    (h : ∀ block, progression ≠ .lengthen block) :
    SayTheSame (Option.Rel Evolution.Alike) (resolver own) (resolver own') progression := by
  intro base m m' hm
  unfold resolver
  rcases rel_cases hm with ⟨rfl, rfl⟩ | ⟨e, d, rfl, rfl, halike⟩
  · exact ⟨rfl, .some (Evolution.alike_start base h own own')⟩
  · exact ⟨halike.current_eq, .some halike⟩

theorem covers_draws (own own' : UInt64) : Expr.Covers Expr.draws (Option.Rel Evolution.Alike)
    (resolver own) (resolver own') := by
  constructor
  · intro e h
    exact (Bool.or_eq_false_iff.1 h).1
  · intro suffix body h
    exact resolver_alike own own' (progressionFor_ne_lengthen (Bool.or_eq_false_iff.1 h).2)

theorem alike_render (h : Alike s t) (seed seed' : UInt64) :
    (s.render seed).1 = (t.render seed').1 ∧ Alike (s.render seed).2 (t.render seed').2 := by
  obtain ⟨expr, own, evolution⟩ := s
  obtain ⟨expr', own', evolution'⟩ := t
  obtain ⟨rfl, hfixed, hevolution⟩ := h
  obtain ⟨hresult, hmemory⟩ :=
    Expr.evalWith_agree seed seed' (covers_draws own own') hfixed hevolution
  exact ⟨hresult, rfl, hfixed, hmemory⟩

theorem alike_map {f : Evolution → Evolution} (h : Alike s t)
    (hf : ∀ {e d}, Evolution.Alike e d → Evolution.Alike (f e) (f d)) :
    Alike { s with evolution := s.evolution.map f } { t with evolution := t.evolution.map f } := by
  refine ⟨h.expr_eq, h.fixed, ?_⟩
  rcases rel_cases h.evolution with ⟨hs, ht⟩ | ⟨e, d, hs, ht, halike⟩
  · rw [hs, ht]
    exact .none
  · rw [hs, ht]
    exact .some (hf halike)

theorem alike_advance (h : Alike s t) : Alike s.advance t.advance :=
  alike_map h Evolution.alike_advance

theorem alike_reset (h : Alike s t) : Alike s.reset t.reset := alike_map h Evolution.alike_reset

end Scene

theorem forall₂_set {α β : Type} {R : α → β → Prop} {l : List α} {m : List β} {a : α} {b : β}
    (h : List.Forall₂ R l m) (hab : R a b) (i : Nat) : List.Forall₂ R (l.set i a) (m.set i b) := by
  induction h generalizing i with
  | nil => exact .nil
  | cons hhead htail ih =>
    cases i with
    | zero => exact .cons hab htail
    | succ i => exact .cons hhead (ih i)

namespace Performance

/-- Performances that stand at the same place and showed the same, with scenes alike. -/
structure Alike (p q : Performance) : Prop where
  scenes : List.Forall₂ Scene.Alike p.scenes q.scenes
  index_eq : p.index = q.index
  triggers_eq : p.triggers = q.triggers
  warnings_eq : p.warnings = q.warnings
  last_eq : p.last = q.last

variable {p q : Performance} {s t : Scene}

theorem parts_fixed {test : Expr → Bool} {e : Expr} (h : e.anyPart test = false) :
    ∀ x ∈ parts e, x.anyPart test = false := by
  unfold parts
  split
  · rw [Expr.anyPart, Bool.or_eq_false_iff] at h
    exact Expr.anyPartOf_eq_false_iff.1 h.2
  · intro x hx
    rw [List.mem_singleton.1 hx]
    exact h

theorem alike_start {parsed : Parsed} (h : parsed.expr.anyPart Expr.draws = false)
    (own own' : UInt64) : Alike (start parsed own) (start parsed own') := by
  refine ⟨?_, rfl, rfl, rfl, rfl⟩
  rw [List.forall₂_iff_get]
  refine ⟨by simp [start], ?_⟩
  intro i hi hi'
  simp only [start, List.get_eq_getElem, List.getElem_mapIdx]
  exact ⟨rfl, parts_fixed h _ (List.getElem_mem _), .none⟩

theorem Alike.current (h : Alike p q) : Scene.Alike p.current q.current := by
  obtain ⟨scenes, index, hlt, triggers, warnings, last⟩ := p
  obtain ⟨scenes', index', hlt', triggers', warnings', last'⟩ := q
  obtain ⟨hscenes, rfl, -, -, -⟩ := h
  exact hscenes.get hlt hlt'

theorem Alike.setCurrent (h : Alike p q) (hst : Scene.Alike s t) :
    Alike (p.setCurrent s) (q.setCurrent t) := by
  refine ⟨?_, h.index_eq, h.triggers_eq, h.warnings_eq, h.last_eq⟩
  change List.Forall₂ Scene.Alike (p.scenes.set p.index s) (q.scenes.set q.index t)
  rw [h.index_eq]
  exact forall₂_set h.scenes hst _

theorem Alike.setLast (h : Alike p q) (last : Option Pattern) :
    Alike { p with last } { q with last } :=
  ⟨h.scenes, h.index_eq, h.triggers_eq, h.warnings_eq, rfl⟩

theorem alike_render (h : Alike p q) (seed seed' : UInt64) :
    (p.render seed).1 = (q.render seed').1 ∧ Alike (p.render seed).2 (q.render seed').2 := by
  obtain ⟨hresult, hscene⟩ := Scene.alike_render h.current seed seed'
  unfold render
  rcases hs : p.current.render seed with ⟨r, s⟩
  rcases ht : q.current.render seed' with ⟨r', t⟩
  rw [hs, ht] at hresult hscene
  obtain rfl : r = r' := hresult
  cases r with
  | ok e => exact ⟨rfl, (h.setCurrent hscene).setLast _⟩
  | error err => exact ⟨rfl, h.setCurrent hscene⟩

theorem alike_moved (h : Alike p q) : Alike p.moved q.moved := by
  have hadvanced := h.setCurrent (Scene.alike_advance h.current)
  refine ⟨hadvanced.scenes, ?_, congrArg (· + 1) h.triggers_eq, h.warnings_eq, h.last_eq⟩
  change (p.index + 1) % (p.setCurrent p.current.advance).scenes.length =
    (q.index + 1) % (q.setCurrent q.current.advance).scenes.length
  rw [h.index_eq, hadvanced.scenes.length_eq]

theorem alike_reset (h : Alike p q) : Alike p.reset q.reset := by
  refine ⟨?_, rfl, rfl, h.warnings_eq, rfl⟩
  unfold reset
  rw [List.forall₂_map_left_iff, List.forall₂_map_right_iff]
  exact h.scenes.imp fun _ _ => Scene.alike_reset

theorem Alike.isProgressive_eq (h : Alike p q) : p.isProgressive = q.isProgressive := by
  have hany : ∀ l m : List Scene, List.Forall₂ Scene.Alike l m →
      l.any (fun s => s.expr.isProgressive) = m.any (fun s => s.expr.isProgressive) := by
    intro l m hlm
    induction hlm with
    | nil => rfl
    | cons hst _ ih => rw [List.any_cons, List.any_cons, hst.expr_eq, ih]
  exact hany _ _ h.scenes

theorem Alike.ofPerformance_eq (h : Alike p q) (e : Evaluation) :
    Reading.ofPerformance e p = Reading.ofPerformance e q := by
  unfold Reading.ofPerformance
  rw [h.index_eq, h.scenes.length_eq, h.isProgressive_eq, h.warnings_eq]

theorem Alike.evolution_eq {α : Type} {f : Evolution → α} (h : Alike p q)
    (hf : ∀ {e d}, Evolution.Alike e d → f e = f d) :
    p.current.evolution.map f = q.current.evolution.map f := by
  rcases rel_cases h.current.evolution with ⟨hp, hq⟩ | ⟨e, d, hp, hq, halike⟩
  · rw [hp, hq]
  · rw [hp, hq, Option.map_some, Option.map_some, hf halike]

theorem Alike.kind?_eq (h : Alike p q) : p.kind? = q.kind? :=
  h.evolution_eq fun halike => congrArg Progression.kind halike.progression_eq

theorem Alike.shown?_eq (h : Alike p q) : p.shown? = q.shown? := by
  unfold shown?
  rw [h.last_eq, h.evolution_eq fun halike => halike.current_eq]

theorem alike_perform (h : Alike p q) (seed seed' : UInt64) (advancing : Bool) :
    (p.perform seed advancing).1 = (q.perform seed' advancing).1 ∧
      Alike (p.perform seed advancing).2 (q.perform seed' advancing).2 := by
  have hmap : ∀ x y : Except NotationError Evaluation × Performance, x.1 = y.1 → Alike x.2 y.2 →
      x.1.map (Reading.ofPerformance · x.2) = y.1.map (Reading.ofPerformance · y.2) := by
    rintro ⟨x, p'⟩ ⟨y, q'⟩ rfl halike
    cases x with
    | ok e => exact congrArg Except.ok (halike.ofPerformance_eq e)
    | error err => rfl
  cases advancing with
  | false =>
    obtain ⟨hresult, halike⟩ := alike_render h seed seed'
    exact ⟨hmap _ _ hresult halike, halike⟩
  | true =>
    obtain ⟨hresult, halike⟩ := alike_render (alike_moved h) seed seed'
    exact ⟨hmap _ _ hresult halike, halike⟩

theorem alike_debut (h : Alike p q) (seed seed' : UInt64) (advancing : Bool) :
    (p.debut seed advancing).1 = (q.debut seed' advancing).1 ∧
      Alike (p.debut seed advancing).2 (q.debut seed' advancing).2 := by
  obtain ⟨hresult, halike⟩ := alike_perform h seed seed' false
  unfold debut
  rcases hp : p.perform seed false with ⟨r, p'⟩
  rcases hq : q.perform seed' false with ⟨r', q'⟩
  rw [hp, hq] at hresult halike
  obtain rfl : r = r' := hresult
  cases r with
  | error err => exact ⟨rfl, halike⟩
  | ok r =>
    cases advancing with
    | false => exact ⟨rfl, halike⟩
    | true => exact alike_perform halike seed seed' true

end Performance

end Rhythm
