import Mathlib.Data.Nat.Basic
import Rhythm.Session
import Rhythm.Proofs.Performance.Turn

/-! What a performance shows depends on nothing but the number of its triggers. -/
namespace Rhythm

open Notation Rhythm.Random Performance

namespace Notation.Parsed

/-- The number of scenes of a text. -/
def sceneCount (parsed : Parsed) : Nat := (parts parsed.expr).length

theorem sceneCount_pos (parsed : Parsed) : 0 < parsed.sceneCount :=
  List.length_pos_iff.2 (parts_ne_nil _)

/-- The scene whose turn it is after a number of triggers. -/
def sceneAfter (parsed : Parsed) (n : Nat) : Expr :=
  (parts parsed.expr).get ⟨n % parsed.sceneCount, Nat.mod_lt _ parsed.sceneCount_pos⟩

/-- What a text shows after a number of triggers: the scene whose turn it is, evaluated by itself,
with the pattern that its progressive expression has come to in the rounds so far. -/
def resultAfter (parsed : Parsed) (seed own : UInt64) (n : Nat) : Except NotationError Evaluation :=
  ((parsed.sceneAfter n).evalWith seed
    (afterTurns (derivedSeed own (sceneName (n % parsed.sceneCount))) (n / parsed.sceneCount)) ()).1

def readingAfter (parsed : Parsed) (seed own : UInt64) (n : Nat) : Except NotationError Reading :=
  (parsed.resultAfter seed own n).map fun e =>
    ⟨e, n % parsed.sceneCount, parsed.sceneCount, parsed.expr.isProgressive, parsed.warnings⟩

end Notation.Parsed

variable {parsed : Parsed} {seed own : UInt64} {n i : Nat} {p : Performance} {s : Scene}

theorem parts_of_isScene {e : Expr} (h : e.IsScene) : parts e = [e] := by
  unfold parts
  split
  · rcases h with ⟨⟨⟨⟩⟩⟩
  · rfl

theorem parts_scenes {es : List Expr} (h : es ≠ []) : parts (.scenes es) = es := by
  obtain ⟨e, es, rfl⟩ := List.exists_cons_of_ne_nil h
  rfl

theorem parts_isScene (h : parsed.Shaped) : ∀ e ∈ parts parsed.expr, e.IsScene := by
  cases h with
  | single he =>
    intro x hx
    rw [parts_of_isScene he, List.mem_singleton] at hx
    exact hx ▸ he
  | several hne hes =>
    rw [parts_scenes hne]
    exact hes

theorem any_parts (e : Expr) : (parts e).any Expr.isProgressive = e.isProgressive := by
  unfold parts
  split
  · rw [Expr.isProgressive, Expr.anyProgressive_eq]
  · simp

namespace Performance

/-- How many of the first `n` triggers ended a turn of scene `i`. -/
def turnsOf (scenes i n : Nat) : Nat := n / scenes + if i < n % scenes then 1 else 0

theorem turnsOf_zero (scenes i : Nat) : turnsOf scenes i 0 = 0 := by simp [turnsOf]

theorem turnsOf_current (scenes n : Nat) : turnsOf scenes (n % scenes) n = n / scenes := by
  simp [turnsOf]

theorem turnsOf_succ {scenes : Nat} (hi : i < scenes) :
    turnsOf scenes i (n + 1) = turnsOf scenes i n + if i = n % scenes then 1 else 0 := by
  have hn : scenes * (n / scenes) + n % scenes = n := Nat.div_add_mod n scenes
  have hr : n % scenes < scenes := Nat.mod_lt _ (Nat.zero_lt_of_lt hi)
  unfold turnsOf
  by_cases hl : n % scenes + 1 = scenes
  · have hn' : n + 1 = 0 + scenes * (n / scenes + 1) := by rw [Nat.mul_succ]; omega
    have hd : (n + 1) / scenes = n / scenes + 1 := by
      rw [hn', Nat.add_mul_div_left _ _ (by omega), Nat.zero_div, Nat.zero_add]
    have hm : (n + 1) % scenes = 0 := by rw [hn', Nat.add_mul_mod_self_left, Nat.zero_mod]
    rw [hm, hd]
    split <;> split <;> split <;> omega
  · have hn' : n + 1 = (n % scenes + 1) + scenes * (n / scenes) := by omega
    have hd : (n + 1) / scenes = n / scenes := by
      rw [hn', Nat.add_mul_div_left _ _ (by omega), Nat.div_eq_of_lt (by omega), Nat.zero_add]
    have hm : (n + 1) % scenes = n % scenes + 1 := by
      rw [hn', Nat.add_mul_mod_self_left, Nat.mod_eq_of_lt (by omega)]
    rw [hm, hd]
    split <;> split <;> split <;> omega

/-- Scene `i` of a text, after a number of triggers of the text. -/
structure Part (parsed : Parsed) (seed own : UInt64) (n i : Nat) (s : Scene) : Prop where
  expr_eq : (parts parsed.expr)[i]? = some s.expr
  seed_eq : s.seed = derivedSeed own (sceneName i)
  had : s.Had seed (turnsOf parsed.sceneCount i n)

/-- Where a performance stands after a number of triggers, its current scene not yet shown. -/
structure Due (parsed : Parsed) (seed own : UInt64) (n : Nat) (p : Performance) : Prop where
  length_eq : p.scenes.length = parsed.sceneCount
  part : ∀ i s, p.scenes[i]? = some s → Part parsed seed own n i s
  index_eq : p.index = n % parsed.sceneCount
  triggers_eq : p.triggers = n
  warnings_eq : p.warnings = parsed.warnings

/-- Where a performance stands after a number of triggers, its current scene shown. -/
structure Shown (parsed : Parsed) (seed own : UInt64) (n : Nat) (p : Performance) : Prop
    extends Due parsed seed own n p where
  seen : p.current.Seen seed (n / parsed.sceneCount)

theorem Part.isScene (h : Part parsed seed own n i s) (hp : parsed.Shaped) : s.expr.IsScene :=
  parts_isScene hp _ (List.mem_of_getElem? h.expr_eq)

theorem current_mem (p : Performance) : p.scenes[p.index]? = some p.current :=
  List.getElem?_eq_getElem p.index_lt

theorem due_start : Due parsed seed own 0 (start parsed own) where
  length_eq := List.length_mapIdx
  part := by
    intro i s hs
    simp only [start, List.getElem?_mapIdx, Option.map_eq_some_iff] at hs
    obtain ⟨e, he, rfl⟩ := hs
    exact ⟨he, rfl, .inr ⟨rfl, turnsOf_zero _ _⟩⟩
  index_eq := (Nat.zero_mod _).symm
  triggers_eq := rfl
  warnings_eq := rfl

namespace Due

variable (h : Due parsed seed own n p)

include h

theorem current_part : Part parsed seed own n p.index p.current := h.part _ _ p.current_mem

theorem current_had : p.current.Had seed (n / parsed.sceneCount) := by
  have hc := h.current_part.had
  rwa [h.index_eq, turnsOf_current] at hc

theorem current_expr : p.current.expr = parsed.sceneAfter n := by
  have hi := h.current_part.expr_eq
  rw [h.index_eq] at hi
  exact ((List.getElem_eq_iff _).2 hi).symm

/-- The current scene shows what the text shows after so many triggers. -/
theorem current_result : p.current.resultAfter seed (n / parsed.sceneCount) =
    parsed.resultAfter seed own n := by
  rw [Scene.resultAfter, h.current_expr, h.current_part.seed_eq, h.index_eq]
  rfl

theorem map_expr : p.scenes.map (·.expr) = parts parsed.expr := by
  apply List.ext_getElem?
  intro i
  rw [List.getElem?_map]
  cases hs : p.scenes[i]? with
  | some s => exact (h.part i s hs).expr_eq.symm
  | none =>
    rw [List.getElem?_eq_none_iff, h.length_eq] at hs
    exact (List.getElem?_eq_none hs).symm

theorem isProgressive_eq : p.isProgressive = parsed.expr.isProgressive := by
  rw [← any_parts, ← h.map_expr, List.any_map]
  rfl

theorem setCurrent (hs : Part parsed seed own n p.index s) :
    Due parsed seed own n (p.setCurrent s) where
  length_eq := by rw [Performance.setCurrent, List.length_set, h.length_eq]
  part := by
    intro i t ht
    rw [Performance.setCurrent] at ht
    by_cases hi : p.index = i
    · subst hi
      rw [List.getElem?_set_self p.index_lt] at ht
      cases ht
      exact hs
    · rw [List.getElem?_set_ne hi] at ht
      exact h.part i t ht
  index_eq := h.index_eq
  triggers_eq := h.triggers_eq
  warnings_eq := h.warnings_eq

end Due

/-- The current scene evolves, and the turn is the next one's. -/
def moved (p : Performance) : Performance :=
  { (p.setCurrent p.current.advance).next with triggers := p.triggers + 1 }

/-- One trigger ends a turn of the current scene and of no other one. -/
theorem due_moved (hp : parsed.Shaped) (h : Shown parsed seed own n p) :
    Due parsed seed own (n + 1) p.moved where
  length_eq := by
    rw [← h.length_eq]
    exact List.length_set
  part := by
    intro i s hs
    change (p.scenes.set p.index p.current.advance)[i]? = some s at hs
    by_cases hi : p.index = i
    · subst hi
      rw [List.getElem?_set_self p.index_lt] at hs
      cases hs
      refine ⟨h.current_part.expr_eq, h.current_part.seed_eq, .inl ?_⟩
      rw [turnsOf_succ (h.length_eq ▸ p.index_lt), if_pos h.index_eq, h.index_eq, turnsOf_current]
      exact Scene.seen_advance (h.current_part.isScene hp) h.seen
    · rw [List.getElem?_set_ne hi] at hs
      have hpart := h.part i s hs
      refine ⟨hpart.expr_eq, hpart.seed_eq, ?_⟩
      have hlt : i < parsed.sceneCount := (List.getElem?_eq_some_iff.1 hpart.expr_eq).1
      rw [turnsOf_succ hlt, if_neg (h.index_eq ▸ Ne.symm hi), Nat.add_zero]
      exact hpart.had
  index_eq := by
    change (p.index + 1) % (p.scenes.set p.index p.current.advance).length = _
    rw [List.length_set, h.length_eq, h.index_eq, Nat.mod_add_mod]
  triggers_eq := congrArg (· + 1) h.triggers_eq
  warnings_eq := h.warnings_eq

theorem current_setCurrent (p : Performance) (s : Scene) : (p.setCurrent s).current = s :=
  List.getElem_set_self _

theorem Shown.setLast (h : Shown parsed seed own n p) (last : Option Pattern) :
    Shown parsed seed own n { p with last } :=
  ⟨⟨h.length_eq, h.part, h.index_eq, h.triggers_eq, h.warnings_eq⟩, h.seen⟩

/-- Showing a performance shows what the text shows, and leaves it where it is. -/
theorem render_due (hp : parsed.Shaped) (h : Due parsed seed own n p) :
    (p.render seed).1 = parsed.resultAfter seed own n ∧
      Shown parsed seed own n (p.render seed).2 := by
  let s : Scene :=
    { p.current with evolution := p.current.evolutionAfter seed (n / parsed.sceneCount) }
  have hseen : s.Seen seed (n / parsed.sceneCount) := rfl
  have hs : Part parsed seed own n p.index s := by
    refine ⟨h.current_part.expr_eq, h.current_part.seed_eq, .inl ?_⟩
    rw [h.index_eq, turnsOf_current]
    exact hseen
  have hshown : Shown parsed seed own n (p.setCurrent s) :=
    ⟨h.setCurrent hs, by rw [current_setCurrent]; exact hseen⟩
  have hr : p.current.render seed = (parsed.resultAfter seed own n, s) := by
    rw [Scene.render_had (h.current_part.isScene hp) h.current_had, h.current_result]
  unfold render
  rw [hr]
  cases parsed.resultAfter seed own n with
  | ok e => exact ⟨rfl, hshown.setLast _⟩
  | error err => exact ⟨rfl, hshown⟩

/-- The first scene was shown before every later one. -/
theorem Shown.first_seen (h : Shown parsed seed own n p) (hs : p.scenes[0]? = some s) :
    ∃ k, s.Seen seed k := by
  rcases (h.part 0 s hs).had with hseen | ⟨-, hk⟩
  · exact ⟨_, hseen⟩
  · -- without a turn behind it, it is the current one
    have hn : n / parsed.sceneCount = 0 ∧ n % parsed.sceneCount = 0 := by
      by_cases hr : 0 < n % parsed.sceneCount
      · rw [turnsOf, if_pos hr] at hk
        exact absurd hk (Nat.succ_ne_zero _)
      · rw [turnsOf, if_neg hr] at hk
        exact ⟨hk, by omega⟩
    have hc := p.current_mem
    rw [h.index_eq, hn.2, hs] at hc
    cases hc
    exact ⟨_, h.seen⟩

theorem shown_reset (hp : parsed.Shaped) (h : Shown parsed seed own n p) :
    Shown parsed seed own 0 p.reset where
  length_eq := by
    rw [← h.length_eq]
    exact List.length_map _
  part := by
    intro i s hs
    change (p.scenes.map Scene.reset)[i]? = some s at hs
    rw [List.getElem?_map, Option.map_eq_some_iff] at hs
    obtain ⟨t, ht, rfl⟩ := hs
    have hpart := h.part i t ht
    refine ⟨hpart.expr_eq, hpart.seed_eq, ?_⟩
    rw [turnsOf_zero]
    exact Scene.had_reset (hpart.isScene hp) hpart.had
  index_eq := (Nat.zero_mod _).symm
  triggers_eq := rfl
  warnings_eq := h.warnings_eq
  seen := by
    have hc := p.reset.current_mem
    change (p.scenes.map Scene.reset)[0]? = some _ at hc
    rw [List.getElem?_map, Option.map_eq_some_iff] at hc
    obtain ⟨s, hs, hc⟩ := hc
    obtain ⟨k, hk⟩ := h.first_seen hs
    rw [← hc, Nat.zero_div]
    exact Scene.seen_reset ((h.part 0 s hs).isScene hp) hk

/-- The number of triggers that a reading comes after. -/
def counted (advancing : Bool) (n : Nat) : Nat := if advancing then n + 1 else n

theorem map_ofPerformance (h : Due parsed seed own n p) :
    (parsed.resultAfter seed own n).map (Reading.ofPerformance · p) =
      parsed.readingAfter seed own n := by
  unfold Parsed.readingAfter Reading.ofPerformance
  rw [h.index_eq, h.length_eq, h.isProgressive_eq, h.warnings_eq]

theorem perform_due (hp : parsed.Shaped) (h : Due parsed seed own n p) :
    (p.perform seed false).1 = parsed.readingAfter seed own n ∧
      Shown parsed seed own n (p.perform seed false).2 := by
  obtain ⟨hr, hs⟩ := render_due hp h
  refine ⟨?_, hs⟩
  rw [← map_ofPerformance hs.toDue, ← hr]
  rfl

theorem perform_shown (hp : parsed.Shaped) (h : Shown parsed seed own n p) (advancing : Bool) :
    (p.perform seed advancing).1 = parsed.readingAfter seed own (counted advancing n) ∧
      Shown parsed seed own (counted advancing n) (p.perform seed advancing).2 := by
  cases advancing with
  | false => exact perform_due hp h.toDue
  | true =>
    have he : p.perform seed true = p.moved.perform seed false := rfl
    rw [he]
    exact perform_due hp (due_moved hp h)

/-- A text begins with what it shows at first, and stays there if that fails. -/
theorem debut_start (hp : parsed.Shaped) (seed own : UInt64) (advancing : Bool) :
    (∃ err, parsed.readingAfter seed own 0 = .error err ∧
      ((start parsed own).debut seed advancing).1 = .error err) ∨
    ((∃ r, parsed.readingAfter seed own 0 = .ok r) ∧
      ((start parsed own).debut seed advancing).1 =
        parsed.readingAfter seed own (counted advancing 0) ∧
      Shown parsed seed own (counted advancing 0) ((start parsed own).debut seed advancing).2) := by
  have hdue : Due parsed seed own 0 (start parsed own) := due_start
  obtain ⟨hr, hs⟩ := perform_due hp hdue
  unfold debut
  rw [← hr]
  rcases hq : (start parsed own).perform seed false with ⟨r, p⟩
  rw [hq] at hr hs
  cases r with
  | error err => exact .inl ⟨err, rfl, rfl⟩
  | ok r =>
    refine .inr ⟨⟨r, rfl⟩, ?_⟩
    cases advancing with
    | false => exact ⟨hr, hs⟩
    | true => exact perform_shown hp hs true

end Performance

end Rhythm
