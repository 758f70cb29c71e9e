import Rhythm.Proofs.Session.Failure

/-! Reading texts and asking about them moves nothing: whatever is kept all the while stands where
it stood. -/
namespace Rhythm

open Notation Performance

variable {parsed : Parsed} {seed own : UInt64} {n : Nat} {p q r : Performance}

namespace Performance

/-- It is the same scene's turn after as many triggers, and every evolution has come as far. What
was shown last may differ. -/
structure SameStanding (p q : Performance) : Prop where
  scenes_eq : q.scenes = p.scenes
  index_eq : q.index = p.index
  triggers_eq : q.triggers = p.triggers

theorem SameStanding.refl (p : Performance) : SameStanding p p := ⟨rfl, rfl, rfl⟩

theorem SameStanding.trans (h : SameStanding p q) (h' : SameStanding q r) : SameStanding p r :=
  ⟨h'.scenes_eq.trans h.scenes_eq, h'.index_eq.trans h.index_eq,
    h'.triggers_eq.trans h.triggers_eq⟩

/-- To show a performance whose current scene was shown before starts no evolution. -/
theorem sameStanding_render (hp : parsed.Shaped) (h : Shown parsed seed own n p) :
    SameStanding p (p.render seed).2 := by
  unfold render
  rw [Scene.render_seen (h.current_part.isScene hp) h.seen]
  dsimp only
  rw [setCurrent_current]
  cases p.current.resultAfter seed (n / parsed.sceneCount) with
  | ok e => exact ⟨rfl, rfl, rfl⟩
  | error err => exact .refl p

end Performance

namespace Session

variable {settings : Settings} {s : Session} {text : String} {c : Call} {cs ds h : List Call}

/-- Whether a call only reads a text as it stands, or asks about it. -/
def Call.isQuiet : Call → Bool
  | .parse _ | .state _ => true
  | _ => false

/-- The session after calls in their order. -/
def serveAll (s : Session) (cs : List Call) : Session := cs.foldl (fun s c => (s.serve c).2) s

/-- One of the calls drops the text, in their order, though it does not forget it. -/
def Drops (text : String) : Session → List Call → Prop
  | _, [] => False
  | s, c :: cs => Evicts s c text ∨ Drops text (s.serve c).2 cs

instance decidableDrops (text : String) : (s : Session) → (cs : List Call) →
    Decidable (Drops text s cs)
  | _, [] => inferInstanceAs (Decidable False)
  | s, c :: cs =>
    have := decidableDrops text (s.serve c).2 cs
    inferInstanceAs (Decidable (_ ∨ _))

theorem serveAll_append (s : Session) (cs ds : List Call) :
    s.serveAll (cs ++ ds) = (s.serveAll cs).serveAll ds := List.foldl_append

theorem serveAll_after (settings : Settings) (h cs : List Call) :
    (after settings h).serveAll cs = after settings (cs.reverse ++ h) := by
  induction cs generalizing h with
  | nil => rfl
  | cons c cs ih =>
    rw [List.reverse_cons, List.append_assoc]
    exact ih (c :: h)

theorem contains_of_peek? (hp : s.store.peek? text = some p) :
    s.store.contains text = true := by
  rw [← Store.peek?_isSome, hp, Option.isSome_some]

/-- A kept text has been shown after its last trigger. -/
theorem exists_shown (hp : (after settings h).store.peek? text = some p) :
    ∃ parsed own n, parsed.Shaped ∧ turns? settings text h = some n ∧
      Shown parsed settings.seed own n p := by
  obtain ⟨parsed, hparse, hstateful⟩ := keepable_of_contains (contains_of_peek? hp)
  have hstands := stands_after hparse hstateful settings h
  rw [hp] at hstands
  obtain ⟨n, hn, hshown⟩ := stands_some hstands
  exact ⟨parsed, _, n, parse_shaped hparse, hn, hshown⟩

/-- A quiet call leaves what it keeps where it stands. -/
theorem sameStanding_serve (hc : c.isQuiet = true)
    (hp : (after settings h).store.peek? text = some p)
    (hk : (after settings (c :: h)).store.contains text = true) :
    ∃ q, (after settings (c :: h)).store.peek? text = some q ∧ SameStanding p q := by
  by_cases hcon : c.concerns text = true
  · have hq := (serve_alone (s := after settings h) hcon).2
    rw [hp, after_seed] at hq
    cases c with
    | parse t =>
      obtain ⟨parsed, own, n, hshaped, -, hshown⟩ := exists_shown hp
      exact ⟨_, hq, sameStanding_render hshaped hshown⟩
    | state t => exact ⟨p, hq, .refl p⟩
    | _ => cases hc
  · obtain hq | hq := serve_other (s := after settings h) (Bool.eq_false_iff.2 hcon)
    · exact ⟨p, hq.trans hp, .refl p⟩
    · rw [← Store.peek?_isSome, after, hq] at hk
      cases hk

theorem turns?_quiet (hc : c.isQuiet = true) (hn : turns? settings text h = some n)
    (hk : (after settings (c :: h)).store.contains text = true) :
    turns? settings text (c :: h) = some n := by
  rw [turns?_cons, if_pos hk, hn]
  cases c with
  | parse t => rfl
  | state t => rfl
  | _ => cases hc

theorem contains_of_not_evicts (hc : c.isQuiet = true) (he : ¬ Evicts s c text)
    (hk : s.store.contains text = true) : (s.serve c).2.store.contains text = true := by
  by_contra hgone
  refine he ⟨hk, Bool.eq_false_iff.2 hgone, ?_⟩
  rintro rfl
  cases hc

/-- Quiet calls leave a text where it stands if none of them drops it, and none of them counts as a
trigger. -/
theorem sameStanding_serveAll (hc : ∀ c ∈ cs, c.isQuiet = true)
    (hp : (after settings h).store.peek? text = some p)
    (hd : ¬ Drops text (after settings h) cs) :
    (∃ q, ((after settings h).serveAll cs).store.peek? text = some q ∧ SameStanding p q) ∧
      turns? settings text (cs.reverse ++ h) = turns? settings text h := by
  induction cs generalizing h p with
  | nil => exact ⟨⟨p, hp, .refl p⟩, rfl⟩
  | cons c cs ih =>
    obtain ⟨hquiet, hrest⟩ := List.forall_mem_cons.1 hc
    obtain ⟨he, hd⟩ := not_or.1 hd
    have hk : (after settings (c :: h)).store.contains text = true :=
      contains_of_not_evicts hquiet he (contains_of_peek? hp)
    obtain ⟨q, hq, hpq⟩ := sameStanding_serve hquiet hp hk
    obtain ⟨⟨r, hr, hqr⟩, hturns⟩ := ih hrest hq hd
    obtain ⟨_, _, n, -, hn, -⟩ := exists_shown hp
    refine ⟨⟨r, hr, hpq.trans hqr⟩, ?_⟩
    rw [List.reverse_cons, List.append_assoc, List.singleton_append, hturns,
      turns?_quiet hquiet hn hk, hn]

/-- After quiet calls that do not drop it a text means what it meant before, now and after one more
trigger. -/
theorem sameReadings_serveAll (hc : ∀ c ∈ cs, c.isQuiet = true)
    (hp : (after settings h).store.peek? text = some p)
    (hd : ¬ Drops text (after settings h) cs) :
    SameReadings text (after settings h) ((after settings h).serveAll cs) := by
  obtain ⟨parsed, hparse, hstateful⟩ := keepable_of_contains (contains_of_peek? hp)
  obtain ⟨_, _, n, -, hn, -⟩ := exists_shown hp
  have hturns := (sameStanding_serveAll hc hp hd).2
  rw [serveAll_after]
  exact sameReadings_of_turns hparse hstateful rfl hn (hturns.trans hn)

end Session

end Rhythm
