import Rhythm.Proofs.Generator.Random
import Rhythm.Proofs.Performance.Turn

/-! Lengthening: each trigger appends a random block, until there is no room left. What is drawn is
left open, by whatever sampler; that the block is mixed and as long as the room allows is not. -/
namespace Rhythm.Evolution

open Rhythm.Random

variable {base : Pattern} {block n : Nat} {seed : UInt64} {e : Evolution}

theorem isSettled_lengthen (h : e.progression = .lengthen block) :
    e.isSettled = true ↔ block = 0 ∨ e.current.length = maxSteps := by
  have hroom := e.current.length_le'
  unfold isSettled
  simp only [h, Bool.or_eq_true, decide_eq_true_eq]
  omega

section

variable [Sampler]

/-- A block appended to what is shown, cut where the longest pattern ends. -/
theorem grow_appends [Sampler.Lawful] (e : Evolution) (block : Nat) : ∃ run,
    (e.grow block).current.steps = e.current.steps ++ run ∧
    run.length = min block (maxSteps - e.current.length) ∧ Mixed run := by
  have hroom := e.current.length_le'
  unfold grow
  dsimp only
  split
  · next hnone => exact ⟨[], by simp, by simp [hnone], mixed_nil⟩
  · next hsome =>
    have hpos : 0 < min block (maxSteps - e.current.length) := by omega
    have hdrawn := yields_bellScatter hpos (by omega) e.rng
    cases hdraw : bellScatter (min block (maxSteps - e.current.length)) e.rng with
    | mk addition rng =>
      rw [hdraw] at hdrawn
      obtain ⟨hlength, hmixed⟩ := hdrawn
      change addition.length = _ at hlength
      refine ⟨addition.steps, ?_, hlength, hmixed⟩
      have hfits : e.current.length + addition.length ≤ maxSteps := by omega
      simp only [Pattern.append, hfits, ↓reduceDIte]

theorem advance_lengthen (h : e.progression = .lengthen block) :
    e.advance = { e with triggers := e.triggers + 1 }.grow block := by
  unfold advance
  simp only [h]

/-- One trigger appends one block. -/
theorem advance_appends [Sampler.Lawful] (h : e.progression = .lengthen block) : ∃ run,
    e.advance.current.steps = e.current.steps ++ run ∧
    run.length = min block (maxSteps - e.current.length) ∧ Mixed run := by
  rw [advance_lengthen h]
  exact grow_appends { e with triggers := e.triggers + 1 } block

theorem length_advance [Sampler.Lawful] (h : e.progression = .lengthen block) :
    e.advance.current.length = min maxSteps (e.current.length + block) := by
  obtain ⟨run, hsteps, hlength, -⟩ := advance_appends h
  have hroom := e.current.length_le'
  have hsum := congrArg List.length hsteps
  rw [List.length_append] at hsum
  change e.advance.current.length = e.current.length + run.length at hsum
  omega

/-- A pattern that is as long as before is the same. -/
theorem changesNext_lengthen [Sampler.Lawful] (h : e.progression = .lengthen block) :
    e.changesNext = false ↔ block = 0 ∨ e.current.length = maxSteps := by
  obtain ⟨run, hsteps, hlength, -⟩ := advance_appends h
  have hroom := e.current.length_le'
  have hsame : e.advance.current = e.current ↔ run = [] := by
    rw [Pattern.ext_iff, hsteps]
    exact List.append_right_eq_self
  have hempty : run = [] ↔ run.length = 0 := List.length_eq_zero_iff.symm
  rw [changesNext, bne_eq_false_iff_eq, hsame, hempty]
  omega

theorem length_after_lengthen [Sampler.Lawful] (base : Pattern) (block : Nat) (seed : UInt64)
    (n : Nat) : (after n base (.lengthen block) seed).current.length =
      min maxSteps (base.length + n * block) := by
  have hroom := base.length_le'
  induction n with
  | zero =>
    have hstart : (after 0 base (.lengthen block) seed).current = base := rfl
    rw [hstart]
    omega
  | succ n ih =>
    rw [after_succ, length_advance akin_after.progression, ih, Nat.succ_mul]
    omega

/-- Whatever draws the positions of a block, as long as they are distinct, lengthening goes on by
blocks of one size, of which only the last is cut, until there are as many steps as a pattern can
have. What was shown stays in front, and every block has an onset and, if it has two steps, a rest.
A trigger changes nothing just when blocks are empty or no room is left. The generator goes back
with the rest, so that what follows a reset is what was shown before. -/
theorem lengthening_after [Sampler.Lawful] (base : Pattern) (block : Nat) (seed : UInt64)
    (n : Nat) :
    let e := after n base (.lengthen block) seed
    let next := after (n + 1) base (.lengthen block) seed
    e.current.length = min maxSteps (base.length + n * block) ∧
    (∃ run, next.current.steps = e.current.steps ++ run ∧
      (true ∈ run ↔ 0 < run.length) ∧ (false ∈ run ↔ 1 < run.length)) ∧
    (e.changesNext = false ↔ block = 0 ∨ e.current.length = maxSteps) ∧
    (e.isSettled = true ↔ block = 0 ∨ e.current.length = maxSteps) ∧
    ∀ later, advance^[later] e.reset = after later base (.lengthen block) seed := by
  intro e next
  have hprogression : e.progression = .lengthen block := akin_after.progression
  refine ⟨length_after_lengthen base block seed n, ?_, changesNext_lengthen hprogression,
    isSettled_lengthen hprogression, ?_⟩
  · obtain ⟨run, hsteps, -, hmixed⟩ := advance_appends hprogression
    refine ⟨run, ?_, hmixed.onset, hmixed.rest⟩
    rw [← hsteps]
    exact congrArg (·.current.steps) after_succ
  · intro later
    exact congrArg advance^[later] reset_after

end

/-- A beat of four steps has no room for a second block of a hundred. -/
theorem lengthening_after_of_beat : Sampler.Lawful ∧
    (after 2 (Pattern.ofOnsets [0] 4) (.lengthen 100) 7).current.length = 128 := by
  refine ⟨inferInstance, ?_⟩
  exact (lengthening_after (Pattern.ofOnsets [0] 4) 100 7 2).1

end Rhythm.Evolution
