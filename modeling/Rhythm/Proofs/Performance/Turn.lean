import Mathlib.Logic.Function.Iterate
import Rhythm.Performance
import Rhythm.Proofs.Notation.Course

/-! What a scene shows depends on nothing but the number of turns it had. -/
namespace Rhythm

open Notation

/-- An evolution after a number of triggers. -/
def Evolution.after [Sampler] (turns : Nat) (base : Pattern) (progression : Progression)
    (seed : UInt64) : Evolution := Evolution.advance^[turns] (.start base progression seed)

/-- Progressive expressions after a number of turns. The seed is that of lengthening. -/
def afterTurns (own : UInt64) (turns : Nat) : Resolver Unit := fun progression base =>
  pure (Evolution.after turns base progression own).current

/-- Progressive expressions after a number of turns, which are remembered. -/
def recalled (own : UInt64) (turns : Nat) : Resolver (Option Evolution) := fun progression base _ =>
  let e := Evolution.after turns base progression own
  (e.current, some e)

variable {turns : Nat} {base : Pattern} {progression : Progression} {seed own : UInt64}

namespace Evolution

/-- The evolutions agree in all that triggers do not change. -/
structure Akin (e d : Evolution) : Prop where
  base : d.base = e.base
  progression : d.progression = e.progression
  seed : d.seed = e.seed

theorem akin_turn (e : Evolution) (step : Int) : Akin e (e.turn step) := by
  unfold turn
  split <;> exact ⟨rfl, rfl, rfl⟩

theorem akin_grow [Sampler] (e : Evolution) (block : Nat) : Akin e (e.grow block) := by
  unfold grow
  dsimp only
  split
  · exact ⟨rfl, rfl, rfl⟩
  · split
    split <;> exact ⟨rfl, rfl, rfl⟩

theorem akin_approach (e : Evolution) (target : Nat) (strategy : Strategy) :
    Akin e (e.approach target strategy) := by
  unfold approach
  dsimp only
  split <;> exact ⟨rfl, rfl, rfl⟩

theorem akin_advance [Sampler] (e : Evolution) : Akin e e.advance := by
  obtain ⟨base, progression, seed, current, offset, onsets, triggers, rng⟩ := e
  cases progression with
  | offset step =>
    have h := akin_turn ⟨base, .offset step, seed, current, offset, onsets, triggers + 1, rng⟩ step
    exact ⟨h.base, h.progression, h.seed⟩
  | lengthen block =>
    have h := akin_grow ⟨base, .lengthen block, seed, current, offset, onsets, triggers + 1, rng⟩
      block
    exact ⟨h.base, h.progression, h.seed⟩
  | transform target strategy =>
    have h := akin_approach ⟨base, .transform target strategy, seed, current, offset, onsets,
      triggers + 1, rng⟩ target strategy
    exact ⟨h.base, h.progression, h.seed⟩

theorem after_succ [Sampler] : after (turns + 1) base progression seed =
    (after turns base progression seed).advance :=
  Function.iterate_succ_apply' ..

theorem akin_after [Sampler] :
    Akin (start base progression seed) (after turns base progression seed) := by
  induction turns with
  | zero => exact ⟨rfl, rfl, rfl⟩
  | succ n ih =>
    rw [after_succ]
    have h := akin_advance (after n base progression seed)
    exact ⟨h.base.trans ih.base, h.progression.trans ih.progression, h.seed.trans ih.seed⟩

theorem reset_after [Sampler] :
    (after turns base progression seed).reset = after 0 base progression seed := by
  have h : Akin (start base progression seed) (after turns base progression seed) := akin_after
  rw [reset, h.base, h.progression, h.seed]
  rfl

end Evolution

namespace Scene

/-- What the scene shows after a number of turns. -/
def resultAfter (seed : UInt64) (turns : Nat) (s : Scene) : Except NotationError Evaluation :=
  (s.expr.evalWith seed (afterTurns s.seed turns) ()).1

/-- The evolution of the scene after a number of turns, if it has one. -/
def evolutionAfter (seed : UInt64) (turns : Nat) (s : Scene) : Option Evolution :=
  (s.expr.evalWith seed (recalled s.seed turns) none).2

/-- The scene had a number of turns, and was shown after the last of them. -/
def Seen (seed : UInt64) (turns : Nat) (s : Scene) : Prop :=
  s.evolution = s.evolutionAfter seed turns

/-- The scene had a number of turns. If it was never shown, it had none. -/
def Had (seed : UInt64) (turns : Nat) (s : Scene) : Prop :=
  s.Seen seed turns ∨ (s.evolution = none ∧ turns = 0)

variable {s : Scene}

theorem render_seen (he : s.expr.IsScene) (h : s.Seen seed turns) :
    s.render seed = (s.resultAfter seed turns, s) := by
  obtain ⟨c, hc⟩ := evalWith_course seed he
  obtain ⟨e, own, evolution⟩ := s
  simp only [Seen, evolutionAfter, resultAfter, render, hc] at h ⊢
  cases c with
  | settled r => rfl
  | asking progression base finish =>
    subst h
    rfl

/-- A scene that was never shown shows its start. -/
theorem render_fresh (he : s.expr.IsScene) (h : s.evolution = none) :
    s.render seed = (s.resultAfter seed 0, { s with evolution := s.evolutionAfter seed 0 }) := by
  obtain ⟨c, hc⟩ := evalWith_course seed he
  simp only [evolutionAfter, resultAfter, render, hc, h]
  cases c <;> rfl

theorem render_had (he : s.expr.IsScene) (h : s.Had seed turns) : s.render seed =
    (s.resultAfter seed turns, { s with evolution := s.evolutionAfter seed turns }) := by
  rcases h with h | ⟨h, rfl⟩
  · rw [render_seen he h, ← h]
  · exact render_fresh he h

theorem seen_advance (he : s.expr.IsScene) (h : s.Seen seed turns) :
    s.advance.Seen seed (turns + 1) := by
  obtain ⟨c, hc⟩ := evalWith_course seed he
  simp only [Seen, evolutionAfter, advance, hc] at h ⊢
  rw [h]
  cases c with
  | settled r => rfl
  | asking progression base finish =>
    exact congrArg some Evolution.after_succ.symm

theorem seen_reset (he : s.expr.IsScene) (h : s.Seen seed turns) : s.reset.Seen seed 0 := by
  obtain ⟨c, hc⟩ := evalWith_course seed he
  simp only [Seen, evolutionAfter, reset, hc] at h ⊢
  rw [h]
  cases c with
  | settled r => rfl
  | asking progression base finish =>
    exact congrArg some Evolution.reset_after

theorem had_reset (he : s.expr.IsScene) (h : s.Had seed turns) : s.reset.Had seed 0 := by
  rcases h with h | ⟨h, -⟩
  · exact .inl (seen_reset he h)
  · exact .inr ⟨by rw [reset, h, Option.map_none], rfl⟩

end Scene

end Rhythm
