import Rhythm.Proofs.Notation.Asking
import Rhythm.Proofs.Session.Turns

/-! What the summary of a text tells of the pattern that the text means now. -/
namespace Rhythm

open Notation Performance Rhythm.Random

namespace Notation.Expr

/-- What stands under the progressive suffix of an expression, if it has one. -/
def root? : Expr → Option Expr
  | .progressive _ body => some body
  | .accented _ body | .quantized body .. | .rotate body _ => body.root?
  | _ => none

/-- The pattern that a progressive suffix starts from, before the tails after the suffix. -/
def origin? (seed : UInt64) (e : Expr) : Option Pattern :=
  e.root?.bind fun body => (body.eval seed).toOption.map (·.pattern)

end Notation.Expr

variable {seed own : UInt64} {parsed : Parsed} {n : Nat}

theorem root?_eq : (e : Expr) → e.root? = e.suffixed?.map (·.2)
  | .accented _ body | .quantized body .. | .rotate body _ => root?_eq body
  | .progressive .. | .literal _ | .generator .. | .bell .. | .combination .. | .chain ..
  | .invert _ | .reverse _ | .scenes _ => rfl

/-- A scene that can be shown has, at its start, come to where its suffix starts from. -/
theorem Scene.evolutionAfter_zero {s : Scene} (he : s.expr.IsScene) {r : Evaluation}
    (hr : s.resultAfter seed 0 = .ok r) :
    (s.evolutionAfter seed 0).map (·.current) = s.expr.origin? seed := by
  obtain ⟨c, hc, hasks | ⟨a, err, -, -, -, rfl⟩⟩ := asks_or_accent_fails seed he
  · rw [resultAfter, hc] at hr
    rw [evolutionAfter, hc, Expr.origin?, root?_eq]
    cases hasks with
    | fails => cases hr
    | settles _ hs =>
      rw [hs]
      rfl
    | asks _ hs hw =>
      rw [hs, Option.map_some, Option.bind_some, hw]
      rfl
  · rw [resultAfter, hc] at hr
    cases hr

namespace Performance

variable {p q : Performance} {advancing : Bool} {r : Reading}

theorem last_render {r : Evaluation} (h : p.render seed = (.ok r, q)) :
    q.last = some r.pattern := by
  unfold render at h
  generalize p.current.render seed = shown at h
  obtain ⟨x, s⟩ := shown
  cases x with
  | ok e =>
    cases h
    rfl
  | error err => cases h

/-- A reading leaves its pattern as the one shown last. -/
theorem last_perform (h : p.perform seed advancing = (.ok r, q)) :
    q.last = some r.evaluation.pattern := by
  have hmap : ∀ x : Except NotationError Evaluation × Performance,
      (∀ a, x.1 = .ok a → x.2.last = some a.pattern) →
      (x.1.map (Reading.ofPerformance · x.2), x.2) = (.ok r, q) →
      q.last = some r.evaluation.pattern := by
    rintro ⟨x, p'⟩ hlast hx
    cases x with
    | ok a =>
      cases hx
      exact hlast a rfl
    | error err => cases hx
  cases advancing with
  | false => exact hmap (p.render seed) (fun a ha => last_render (Prod.ext ha rfl)) h
  | true => exact hmap (p.trigger seed) (fun a ha => last_render (Prod.ext ha rfl)) h

theorem last_debut (h : p.debut seed advancing = (.ok r, q)) :
    q.last = some r.evaluation.pattern := by
  unfold debut at h
  rcases hp : p.perform seed false with ⟨x, p'⟩
  rw [hp] at h
  cases x with
  | error err => cases h
  | ok a =>
    cases advancing with
    | false =>
      cases h
      exact last_perform hp
    | true =>
      change p'.perform seed true = (.ok r, q) at h
      exact last_perform h

end Performance

namespace Session

/-- What a call makes of the flag that a text was put back and not read since. -/
def Call.rewinds (text : String) (c : Call) (rewound : Bool) : Bool :=
  match c with
  | .parse t | .trigger t => if t = text then false else rewound
  | .reset t => if t = text then true else rewound
  | .resetAll => true
  | _ => rewound

/-- Whether a text was put back to its start and not read since. -/
def rewound (text : String) (h : List Call) : Bool := h.foldr (fun c b => c.rewinds text b) false

/-- The pattern shown last is that of the reading the performance would give now, unless the text
was put back and not read since. Then it is none. -/
def Current (seed : UInt64) (rewound : Bool) (p : Performance) : Prop :=
  if rewound then p.last = none
  else ∀ r, (p.perform seed false).1 = .ok r → p.last = some r.evaluation.pattern

variable {settings : Settings} {text : String} {c : Call} {h : List Call} {p q : Performance}
  {p? : Option Performance} {n? : Option Nat} {advancing : Bool}

theorem rewinds_of_not_concerns (hc : c.concerns text = false) (rewound : Bool) :
    c.rewinds text rewound = rewound := by
  cases c with
  | parse t => exact if_neg (Ne.symm (ne_of_not_concerns hc rfl))
  | trigger t => exact if_neg (Ne.symm (ne_of_not_concerns hc rfl))
  | reset t => exact if_neg (Ne.symm (ne_of_not_concerns hc rfl))
  | resetAll => cases hc
  | _ => rfl

/-- A text that was put back and not read since was not triggered either. -/
theorem turns?_of_rewound (hr : rewound text h = true) (hn : turns? settings text h = some n) :
    n = 0 := by
  induction h generalizing n with
  | nil => cases hr
  | cons c h ih =>
    rw [turns?_cons] at hn
    split at hn
    · cases hn
      have hprev : rewound text h = true → (turns? settings text h).getD 0 = 0 := by
        intro hr
        cases hm : turns? settings text h with
        | none => rfl
        | some m => exact ih hr hm
      rw [rewound, List.foldr_cons, ← rewound] at hr
      cases c with
      | parse t =>
        rw [Call.rewinds] at hr
        split at hr
        · cases hr
        · exact hprev hr
      | trigger t =>
        rw [Call.rewinds] at hr
        split at hr
        · cases hr
        · next ht => exact (if_neg ht).trans (hprev hr)
      | reset t =>
        rw [Call.rewinds] at hr
        rw [Call.turned]
        split at hr
        · next ht => rw [if_pos ht]
        · next ht => rw [if_neg ht, hprev hr]
      | resetAll => rfl
      | forget t => exact hprev hr
      | state t => exact hprev hr
    · cases hn

theorem last_readAlone {r : Reading} (ha : readAlone seed text advancing p? = (.ok r, some q)) :
    q.last = some r.evaluation.pattern := by
  cases p? with
  | some p =>
    rcases hr : p.perform seed advancing with ⟨x, q'⟩
    rw [readAlone, hr] at ha
    cases ha
    exact last_perform hr
  | none =>
    unfold readAlone at ha
    cases hp : Notation.parse text.toList with
    | error err =>
      rw [hp] at ha
      cases ha
    | ok parsed =>
      rw [hp] at ha
      dsimp only at ha
      split at ha
      · cases congrArg Prod.snd ha
      · rcases hd : (Performance.start parsed (derivedSeed seed text.toList)).debut seed advancing
          with ⟨x, q'⟩
        rw [hd] at ha
        cases x with
        | error err => cases ha
        | ok r =>
          cases ha
          exact last_debut hd

section Text

variable (hp : Notation.parse text.toList = .ok parsed) (hs : parsed.isStateful = true)
  (hown : own = derivedSeed seed text.toList)

include hp hs hown

/-- What a reading leaves of a text is current. -/
theorem current_read (hstands : Stands parsed seed own n? p?) {x : Except NotationError Reading}
    (ha : readAlone seed text advancing p? = (x, some q)) : Current seed false q := by
  obtain ⟨m, hm, hx⟩ : ∃ m, Shown parsed seed own m q ∧ parsed.readingAfter seed own m = x := by
    cases p? with
    | none =>
      rcases readAlone_none hp hs hown advancing with ⟨err, ha', -⟩ | ⟨r, q', ha', hf, hshown⟩
      · cases ha.symm.trans ha'
      · cases ha.symm.trans ha'
        refine ⟨_, hshown, ?_⟩
        rw [firstReading] at hf
        cases hz : parsed.readingAfter seed own 0 with
        | error err =>
          rw [hz] at hf
          cases hf
        | ok r₀ =>
          rw [hz] at hf
          exact hf
    | some p =>
      obtain ⟨n, -, hshown⟩ := stands_some hstands
      obtain ⟨hx, hq⟩ := readAlone_some (parse_shaped hp) hshown text advancing
      rw [ha] at hx hq
      exact ⟨_, hq, hx.symm⟩
  intro r hr
  rw [(perform_shown (parse_shaped hp) hm false).1] at hr
  cases hx.symm.trans hr
  exact last_readAlone ha

/-- A call that concerns a text leaves what is shown last current. -/
theorem current_alone (hc : c.concerns text = true) (hstands : Stands parsed seed own n? p?)
    {b : Bool} (hprev : ∀ p, p? = some p → Current seed b p)
    (hk : (c.alone seed text p?).2 = some q) : Current seed (c.rewinds text b) q := by
  cases c with
  | parse t =>
    obtain rfl := (concerns_of_text? rfl).1 hc
    have ha : readAlone seed t false p? = ((readAlone seed t false p?).1, some q) :=
      Prod.ext rfl hk
    rw [Call.rewinds, if_pos rfl]
    exact current_read hp hs hown hstands ha
  | trigger t =>
    obtain rfl := (concerns_of_text? rfl).1 hc
    have ha : readAlone seed t true p? = ((readAlone seed t true p?).1, some q) :=
      Prod.ext rfl hk
    rw [Call.rewinds, if_pos rfl]
    exact current_read hp hs hown hstands ha
  | reset t =>
    obtain rfl := (concerns_of_text? rfl).1 hc
    obtain ⟨p, rfl, rfl⟩ := Option.map_eq_some_iff.1 hk
    rw [Call.rewinds, if_pos rfl]
    exact rfl
  | resetAll =>
    obtain ⟨p, rfl, rfl⟩ := Option.map_eq_some_iff.1 hk
    exact rfl
  | forget t => cases hk
  | state t => exact hprev q hk

end Text

theorem current_after (hp : Notation.parse text.toList = .ok parsed)
    (hs : parsed.isStateful = true) (settings : Settings) (h : List Call)
    (hk : (after settings h).store.peek? text = some p) :
    Current settings.seed (rewound text h) p := by
  induction h generalizing p with
  | nil => cases hk
  | cons c h ih =>
    rw [rewound, List.foldr_cons, ← rewound]
    cases hc : c.concerns text with
    | true =>
      rw [after, (serve_alone hc).2, after_seed] at hk
      exact current_alone hp hs rfl hc (stands_after hp hs settings h) (fun _ => ih) hk
    | false =>
      rw [rewinds_of_not_concerns hc]
      rcases serve_other (s := after settings h) hc with hq | hq
      · rw [after, hq] at hk
        exact ih hk
      · rw [after, hq] at hk
        cases hk

/-- The pattern of the summary: that of the reading, unless the text was put back and not read
since. Then it is where the suffix of the first scene starts from, without the tails after it, and
none without a suffix. -/
theorem summary_after (settings : Settings) (text : String) (h : List Call) (r : Reading)
    (s : Summary) (hr : ((after settings h).parse text).1 = .ok r)
    (hs : (after settings h).state? text = some s) :
    s.sceneIndex = r.sceneIndex ∧ s.sceneCount = r.sceneCount ∧
      ∃ parsed, Notation.parse text.toList = .ok parsed ∧
        s.pattern = if rewound text h then (parsed.sceneAfter 0).origin? settings.seed
          else some r.evaluation.pattern := by
  obtain ⟨p, hk, rfl⟩ := Option.map_eq_some_iff.1 hs
  obtain ⟨parsed, hp, hstate⟩ : Keepable text :=
    keepable_of_contains ((Store.peek?_isSome ..).symm.trans (by rw [hk]; rfl))
  have hshaped := parse_shaped hp
  have hstands := stands_after hp hstate settings h
  rw [hk] at hstands
  obtain ⟨n, hn, hshown⟩ := stands_some hstands
  have hcurrent := current_after hp hstate settings h hk
  have hperform := perform_shown hshaped hshown false
  have hread : (p.perform settings.seed false).1 = .ok r := by
    rw [← hr, Session.parse, (read_alone _ text false).1, hk, after_seed]
    rfl
  have hreading := hperform.1.symm.trans hread
  rw [counted, if_neg Bool.false_ne_true, Parsed.readingAfter] at hreading
  cases hx : parsed.resultAfter settings.seed (derivedSeed settings.seed text.toList) n with
  | error err =>
    rw [hx] at hreading
    cases hreading
  | ok e =>
    rw [hx] at hreading
    cases hreading
    refine ⟨hshown.index_eq, hshown.length_eq, parsed, hp, ?_⟩
    rw [Current] at hcurrent
    dsimp only [shown?]
    split
    · next hrewound =>
      rw [if_pos hrewound] at hcurrent
      obtain rfl := turns?_of_rewound hrewound hn
      have hseen := hshown.seen
      have hzero := hshown.toDue.current_result
      rw [hx, Nat.zero_div] at hzero
      rw [Nat.zero_div] at hseen
      rw [hcurrent, Option.none_or, hseen, ← hshown.toDue.current_expr]
      exact Scene.evolutionAfter_zero (hshown.current_part.isScene hshaped) hzero
    · next hrewound =>
      rw [if_neg hrewound] at hcurrent
      rw [hcurrent _ hread, Option.some_or]

/-- After a reset the summary of a quantized text has the pattern from before the projection. -/
theorem summary_after_reset : ∃ (r : Reading) (s : Summary),
    ((after {} [.reset "E(3,8)+1;5", .parse "E(3,8)+1;5"]).parse "E(3,8)+1;5").1 = .ok r ∧
    (after {} [.reset "E(3,8)+1;5", .parse "E(3,8)+1;5"]).state? "E(3,8)+1;5" = some s ∧
    s.sceneIndex = r.sceneIndex ∧ s.sceneCount = r.sceneCount ∧
    s.pattern ≠ some r.evaluation.pattern := by
  have hread : ((after {} [.reset "E(3,8)+1;5", .parse "E(3,8)+1;5"]).parse
      "E(3,8)+1;5").1.toOption.map (·.evaluation.pattern.length) = some 5 := by decide +kernel
  have hstate : ((after {} [.reset "E(3,8)+1;5", .parse "E(3,8)+1;5"]).state?
      "E(3,8)+1;5").bind (·.pattern.map (·.length)) = some 8 := by decide +kernel
  cases hr : ((after {} [.reset "E(3,8)+1;5", .parse "E(3,8)+1;5"]).parse "E(3,8)+1;5").1 with
  | error err =>
    rw [hr] at hread
    cases hread
  | ok r =>
    cases hs : (after {} [.reset "E(3,8)+1;5", .parse "E(3,8)+1;5"]).state? "E(3,8)+1;5" with
    | none =>
      rw [hs] at hstate
      cases hstate
    | some s =>
      obtain ⟨hindex, hcount, -⟩ := summary_after {} "E(3,8)+1;5" _ r s hr hs
      refine ⟨r, s, rfl, rfl, hindex, hcount, ?_⟩
      intro heq
      rw [hr] at hread
      rw [hs] at hstate
      change some r.evaluation.pattern.length = some 5 at hread
      change s.pattern.map (·.length) = some 8 at hstate
      rw [heq] at hstate
      change some r.evaluation.pattern.length = some 8 at hstate
      cases hread.symm.trans hstate

end Session

end Rhythm
