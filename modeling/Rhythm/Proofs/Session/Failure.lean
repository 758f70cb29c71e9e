import Rhythm.Proofs.Session.Turns

/-! What a session is like after a reading that failed. -/
namespace Rhythm

open Notation

variable {seed own : UInt64} {err : NotationError} {parsed : Parsed} {n : Nat}

/-- A scene that cannot be shown stays as it is. -/
theorem Scene.render_error {s : Scene} (he : s.expr.IsScene)
    (hr : (s.render seed).1 = .error err) : (s.render seed).2 = s := by
  obtain ⟨c, hc⟩ := evalWith_course seed he
  simp only [render, hc] at hr ⊢
  cases c with
  | settled r => rfl
  | asking progression base finish => cases hr

namespace Performance

variable {p : Performance}

theorem setCurrent_current (p : Performance) : p.setCurrent p.current = p := by
  obtain ⟨scenes, index, index_lt, triggers, warnings, last⟩ := p
  simp only [setCurrent, current, List.get_eq_getElem, List.set_getElem_self]

theorem render_error (he : p.current.expr.IsScene) (hr : (p.render seed).1 = .error err) :
    (p.render seed).2 = p := by
  unfold render at hr ⊢
  have hs : (p.current.render seed).1 = .error err → (p.current.render seed).2 = p.current :=
    Scene.render_error he
  generalize p.current.render seed = shown at hr hs ⊢
  obtain ⟨r, s⟩ := shown
  cases r with
  | ok e => cases hr
  | error e =>
    cases hr
    obtain rfl : s = p.current := hs rfl
    exact setCurrent_current p

theorem perform_error (hp : parsed.Shaped) (h : Due parsed seed own n p)
    (hr : (p.perform seed false).1 = .error err) : (p.perform seed false).2 = p := by
  change (p.render seed).1.map _ = .error err at hr
  cases hx : (p.render seed).1 with
  | ok e =>
    rw [hx] at hr
    cases hr
  | error e => exact render_error (h.current_part.isScene hp) hx

/-- A trigger that fails has moved on all the same. -/
theorem perform_error_moved (hp : parsed.Shaped) (h : Shown parsed seed own n p)
    (hr : (p.perform seed true).1 = .error err) : (p.perform seed true).2 = p.moved :=
  perform_error hp (due_moved hp h) hr

theorem moved_ne (p : Performance) : p.moved ≠ p := by
  intro h
  have ht : p.triggers + 1 = p.triggers := congrArg Performance.triggers h
  omega

end Performance

namespace Session

open Performance

variable {settings : Settings} {s : Session} {text : String} {h : List Call} {p : Performance}
  {advancing : Bool}

/-- What is left of a kept text when a reading of it fails. -/
def leftOver (advancing : Bool) (p : Performance) : Performance :=
  if advancing then p.moved else p

theorem map_leftOver_false (p? : Option Performance) : p?.map (leftOver false) = p? := by
  cases p? <;> rfl

/-- A text that cannot be read for the first time is not put in. -/
theorem introduce_error (he : (s.introduce text advancing).1 = .error err) :
    (s.introduce text advancing).2 = s := by
  rcases introduce_cases s text advancing with ⟨r, p, -, hi⟩ | ⟨r, -, hi⟩
  · rw [hi] at he
    cases he
  · rw [hi]

theorem perform_left_over (hk : (after settings h).store.peek? text = some p)
    (hr : (p.perform settings.seed advancing).1 = .error err) :
    (p.perform settings.seed advancing).2 = leftOver advancing p := by
  obtain ⟨parsed, hp, hs⟩ : Keepable text :=
    keepable_of_contains ((Store.peek?_isSome ..).symm.trans (by rw [hk]; rfl))
  have hstands := stands_after hp hs settings h
  rw [hk] at hstands
  obtain ⟨n, -, hshown⟩ := stands_some hstands
  cases advancing with
  | false => exact perform_error (parse_shaped hp) hshown.toDue hr
  | true => exact perform_error_moved (parse_shaped hp) hshown hr

theorem peek?_read_error (he : ((after settings h).read text advancing).1 = .error err)
    (t : String) : ((after settings h).read text advancing).2.store.peek? t =
      if t = text then ((after settings h).store.peek? text).map (leftOver advancing)
      else (after settings h).store.peek? t := by
  cases hk : (after settings h).store.peek? text with
  | some p =>
    rw [read_of_peek? hk, after_seed] at he ⊢
    dsimp only at he ⊢
    rw [Store.peek?_access, hk, Option.map_some, Option.map_some, perform_left_over hk he]
  | none =>
    rw [read_of_not_contains (Store.peek?_eq_none_iff.1 hk)] at he ⊢
    rw [introduce_error he, Store.peek?_tick]
    split
    · next ht => rw [ht, hk, Option.map_none]
    · rfl

theorem keys_read_error (he : (s.read text advancing).1 = .error err) :
    (s.read text advancing).2.store.keys = s.store.keys := by
  cases hk : s.store.peek? text with
  | some p =>
    rw [read_of_peek? hk]
    exact Store.keys_access ..
  | none =>
    rw [read_of_not_contains (Store.peek?_eq_none_iff.1 hk)] at he ⊢
    rw [introduce_error he]
    rfl

/-- A reading that fails leaves the keys and every performance as they are, unless it was to trigger
a text that is kept. Then that text alone has moved on. -/
theorem failed_call (settings : Settings) (h : List Call) (c : Call) (text : String)
    (err : NotationError) (ht : c.text? = some text)
    (he : ((after settings h).serve c).1 = .reading (.error err)) :
    (after settings (c :: h)).store.keys = (after settings h).store.keys ∧
    (∀ t, t ≠ text →
      (after settings (c :: h)).store.peek? t = (after settings h).store.peek? t) ∧
    (c = .trigger text → (after settings (c :: h)).store.peek? text =
      ((after settings h).store.peek? text).map Performance.moved) ∧
    ((∀ t, (after settings (c :: h)).store.peek? t = (after settings h).store.peek? t) ↔
      ¬ (c = .trigger text ∧ (after settings h).store.contains text = true)) := by
  cases c with
  | parse t =>
    cases ht
    have hr : ((after settings h).read text false).1 = .error err := Answer.reading.inj he
    have hpeek := peek?_read_error hr
    have hsame : ∀ t, (after settings (.parse text :: h)).store.peek? t =
        (after settings h).store.peek? t := by
      intro t
      refine (hpeek t).trans ?_
      split
      · next ht => rw [ht, map_leftOver_false]
      · rfl
    refine ⟨keys_read_error hr, ?_, ?_, ?_⟩
    · intro t _
      exact hsame t
    · intro hc
      cases hc
    · refine iff_of_true hsame ?_
      rintro ⟨hc, -⟩
      cases hc
  | trigger t =>
    cases ht
    have hr : ((after settings h).read text true).1 = .error err := Answer.reading.inj he
    have hpeek := peek?_read_error hr
    have htext : (after settings (.trigger text :: h)).store.peek? text =
        ((after settings h).store.peek? text).map moved := (hpeek text).trans (if_pos rfl)
    refine ⟨keys_read_error hr, ?_, fun _ => htext, ?_, ?_⟩
    · intro t hne
      exact (hpeek t).trans (if_neg hne)
    · rintro hsame ⟨-, hk⟩
      obtain ⟨p, hp⟩ := Option.isSome_iff_exists.1 ((Store.peek?_isSome ..).trans hk)
      rw [hsame, hp] at htext
      exact moved_ne p (Option.some.inj htext).symm
    · intro hn t
      refine (hpeek t).trans ?_
      split
      · next ht =>
        have hk : (after settings h).store.contains text = false := by
          rw [← Bool.not_eq_true]
          intro hk
          exact hn ⟨rfl, hk⟩
        rw [ht, Store.peek?_eq_none_iff.2 hk, Option.map_none]
      · rfl
  | _ => cases he

/-- The second of two scenes cannot be shown, and the trigger that comes to it fails. -/
theorem failed_call_of_two : ∃ (err : NotationError) (p : Performance),
    ((after {} [.parse "E(1,4)>4|[]:11-[]:12"]).trigger "E(1,4)>4|[]:11-[]:12").1 = .error err ∧
    (after {} [.parse "E(1,4)>4|[]:11-[]:12"]).store.peek? "E(1,4)>4|[]:11-[]:12" = some p ∧
    (after {} [.trigger "E(1,4)>4|[]:11-[]:12", .parse "E(1,4)>4|[]:11-[]:12"]).store.peek?
      "E(1,4)>4|[]:11-[]:12" = some p.moved := by
  have hfails : ((after {} [.parse "E(1,4)>4|[]:11-[]:12"]).trigger
      "E(1,4)>4|[]:11-[]:12").1.isOk = false := by
    decide +kernel
  have hkept : ((after {} [.parse "E(1,4)>4|[]:11-[]:12"]).store.peek?
      "E(1,4)>4|[]:11-[]:12").isSome = true := by
    decide +kernel
  obtain ⟨p, hp⟩ := Option.isSome_iff_exists.1 hkept
  cases hr : ((after {} [.parse "E(1,4)>4|[]:11-[]:12"]).trigger "E(1,4)>4|[]:11-[]:12").1 with
  | ok r =>
    rw [hr] at hfails
    cases hfails
  | error err =>
    obtain ⟨-, -, hmoved, -⟩ := failed_call {} [.parse "E(1,4)>4|[]:11-[]:12"]
      (.trigger "E(1,4)>4|[]:11-[]:12") "E(1,4)>4|[]:11-[]:12" err rfl (congrArg Answer.reading hr)
    rw [hp] at hmoved
    exact ⟨err, p, rfl, hp, hmoved rfl⟩

end Session

end Rhythm
