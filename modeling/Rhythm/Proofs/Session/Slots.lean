import Rhythm.Proofs.Notation.Asking
import Rhythm.Proofs.Session.Standing

/-! The evolution that a scene keeps is the one its suffix asks for, each time it is shown. -/
namespace Rhythm

open Notation Notation.Expr Performance

variable {parsed : Parsed} {seed : UInt64} {turns : Nat} {s : Scene} {p : Performance}

namespace Scene

/-- An evolution that the scene has started from the pattern under its suffix, and goes on as the
suffix says. -/
def Faithful (seed : UInt64) (s : Scene) : Prop :=
  ∀ ev, s.evolution = some ev → ∃ suffix body v, .progressive suffix body ∈ s.expr.nodes ∧
    body.eval seed = .ok v ∧ ev.base = v.pattern ∧ ev.progression = progressionFor suffix body

theorem faithful_of_none (h : s.evolution = none) : s.Faithful seed := by
  intro ev hev
  rw [h] at hev
  cases hev

theorem faithful_of_seen (he : s.expr.IsScene)
    (ha : ∀ a, s.expr.accent? = some a → a.demands = []) (h : s.Seen seed turns) :
    s.Faithful seed := by
  obtain ⟨c, hasks, hc⟩ := asks_of_isScene seed he ha
  intro ev hev
  rw [h, evolutionAfter, hc] at hev
  cases hasks with
  | fails => cases hev
  | settles => cases hev
  | @asks v w suffix body finish _ hs hw =>
    have hakin : Evolution.Akin (.start w.pattern (progressionFor suffix body) s.seed)
      (.after turns w.pattern (progressionFor suffix body) s.seed) := Evolution.akin_after
    cases hev
    exact ⟨suffix, body, w, he.progressive_mem_iff.2 hs, hw, hakin.base, hakin.progression⟩

end Scene

namespace Session

variable {settings : Settings} {text : String} {h : List Call}

/-- Every scene of a kept text keeps what its suffix asks for. -/
theorem faithful_of_kept (hp : Notation.parse text.toList = .ok parsed)
    (hk : (after settings h).store.peek? text = some p) :
    p.scenes.map (·.expr) = parts parsed.expr ∧ ∀ s ∈ p.scenes, s.Faithful settings.seed := by
  obtain ⟨parsed', hparse, hstateful⟩ := keepable_of_contains (contains_of_peek? hk)
  cases hp.symm.trans hparse
  have hstands := stands_after hparse hstateful settings h
  rw [hk] at hstands
  obtain ⟨n, -, hshown⟩ := stands_some hstands
  refine ⟨hshown.map_expr, ?_⟩
  intro s hs
  obtain ⟨i, hi⟩ := List.mem_iff_getElem?.1 hs
  have hpart := hshown.part i s hi
  have hmem := List.mem_of_getElem? hpart.expr_eq
  obtain hseen | ⟨hnone, -⟩ := hpart.had
  · exact Scene.faithful_of_seen (parts_isScene (parse_shaped hp) _ hmem)
      (fun _ ha => demands_of_accent hp hmem ha) hseen
  · exact Scene.faithful_of_none hnone

/-- The scenes of a text that was read are trees in which accents, tails, suffixes and calls stand
in their places. None of them fails but for something too long in its core, before its suffix asks;
and the suffix always asks for one and the same evolution. Whatever is called, an evolution that a
kept scene has is of this base and this progression. -/
theorem scenes_in_shape (hp : Notation.parse text.toList = .ok parsed) :
    (∀ e ∈ parts parsed.expr, e.SceneTree ∧ ∀ seed, e.AsksOnce seed) ∧
      ∀ (settings : Settings) (h : List Call) (p : Performance),
        (after settings h).store.peek? text = some p →
          p.scenes.map (·.expr) = parts parsed.expr ∧
            ∀ s ∈ p.scenes, s.Faithful settings.seed := by
  refine ⟨?_, fun _ _ _ hk => faithful_of_kept hp hk⟩
  intro e he
  exact ⟨(parts_isScene (parse_shaped hp) e he).sceneTree, fun seed => asksOnce_of_parse seed hp he⟩

/-- An accented scene with all kinds of tails, and one that is too long. -/
theorem scenes_in_shape_of_two : ∃ parsed p,
    Notation.parse "\x7b101\x7dE(1,4)+0:2>4;8@1|[]:11-[]:12".toList = .ok parsed ∧
      parsed.expr.isProgressive = true ∧
      (after {} [.parse "\x7b101\x7dE(1,4)+0:2>4;8@1|[]:11-[]:12"]).store.peek?
        "\x7b101\x7dE(1,4)+0:2>4;8@1|[]:11-[]:12" = some p ∧
      (∀ e ∈ parts parsed.expr, e.SceneTree ∧ ∀ seed, e.AsksOnce seed) ∧
      ∀ s ∈ p.scenes, s.Faithful ({} : Settings).seed := by
  have hevolves : (Notation.parse
      "\x7b101\x7dE(1,4)+0:2>4;8@1|[]:11-[]:12".toList).toOption.map (·.expr.isProgressive) =
        some true := by decide +kernel
  have hkept : ((after {} [.parse "\x7b101\x7dE(1,4)+0:2>4;8@1|[]:11-[]:12"]).store.peek?
      "\x7b101\x7dE(1,4)+0:2>4;8@1|[]:11-[]:12").isSome = true := by decide +kernel
  obtain ⟨p, hk⟩ := Option.isSome_iff_exists.1 hkept
  cases hp : Notation.parse "\x7b101\x7dE(1,4)+0:2>4;8@1|[]:11-[]:12".toList with
  | error err =>
    rw [hp] at hevolves
    cases hevolves
  | ok parsed =>
    rw [hp] at hevolves
    obtain ⟨htrees, hslots⟩ := scenes_in_shape hp
    exact ⟨parsed, p, rfl, Option.some_inj.1 hevolves, hk, htrees, (hslots {} _ p hk).2⟩

end Session

end Rhythm
