import Rhythm.Proofs.Performance.Round
import Rhythm.Proofs.Session.Separation

/-! All that a session remembers of a text is how often it was triggered. -/
namespace Rhythm.Session

open Notation Performance Rhythm.Random

/-- What a call makes of the number of triggers of a kept text. -/
def Call.turned (text : String) (n : Nat) (c : Call) : Nat :=
  match c with
  | .trigger t => if t = text then n + 1 else n
  | .reset t => if t = text then 0 else n
  | .resetAll => 0
  | _ => n

/-- How often a text was triggered since it is kept, or since it was last reset. A trigger that puts
it in counts. -/
def turns? (settings : Settings) (text : String) : List Call → Option Nat
  | [] => none
  | c :: h =>
    if (after settings (c :: h)).store.contains text then
      some (c.turned text ((turns? settings text h).getD 0))
    else none

/-- The text is kept all through later calls. -/
def Kept (settings : Settings) (text : String) (h : List Call) : List Call → Prop
  | [] => (after settings h).store.contains text = true
  | c :: later =>
    (after settings (c :: later ++ h)).store.contains text = true ∧ Kept settings text h later

/-- The text means the same in two sessions, now and after a trigger. -/
def SameReadings (text : String) (s s' : Session) : Prop :=
  (s.parse text).1 = (s'.parse text).1 ∧ (s.trigger text).1 = (s'.trigger text).1

/-- What a text means when it was not kept: it has to be shown before it is triggered. -/
def firstReading (parsed : Parsed) (seed own : UInt64) (advancing : Bool) :
    Except NotationError Reading := do
  let _ ← parsed.readingAfter seed own 0
  parsed.readingAfter seed own (counted advancing 0)

/-- A text that is kept was triggered a number of times. -/
def Stands (parsed : Parsed) (seed own : UInt64) : Option Nat → Option Performance → Prop
  | none, none => True
  | some n, some p => Shown parsed seed own n p
  | _, _ => False

variable {settings settings' : Settings} {s : Session} {text : String} {c : Call}
  {h h' : List Call} {parsed : Parsed} {seed own : UInt64} {n : Nat} {n? : Option Nat}
  {p : Performance} {p? : Option Performance} {advancing : Bool}

theorem stands_some (h : Stands parsed seed own n? (some p)) :
    ∃ n, n? = some n ∧ Shown parsed seed own n p := by
  cases n? with
  | none => exact h.elim
  | some n => exact ⟨n, rfl, h⟩

theorem readAlone_some (hp : parsed.Shaped) (hs : Shown parsed seed own n p) (text : String)
    (advancing : Bool) :
    (readAlone seed text advancing (some p)).1 = parsed.readingAfter seed own (counted advancing n) ∧
      Stands parsed seed own (some (counted advancing n))
        (readAlone seed text advancing (some p)).2 :=
  perform_shown hp hs advancing

theorem readAlone_none (hp : Notation.parse text.toList = .ok parsed)
    (hs : parsed.isStateful = true) (hown : own = derivedSeed seed text.toList) (advancing : Bool) :
    (∃ e, readAlone seed text advancing none = (.error e, none) ∧
      firstReading parsed seed own advancing = .error e) ∨
    (∃ r p, readAlone seed text advancing none = (.ok r, some p) ∧
      firstReading parsed seed own advancing = .ok r ∧
      Shown parsed seed own (counted advancing 0) p) := by
  subst hown
  have hdebut := debut_start (parse_shaped hp) seed (derivedSeed seed text.toList) advancing
  unfold readAlone firstReading
  rw [hp]
  dsimp only
  rw [hs, Bool.not_true, if_neg Bool.false_ne_true]
  rcases hr : (Performance.start parsed (derivedSeed seed text.toList)).debut seed advancing with
    ⟨r, p⟩
  rw [hr] at hdebut
  rcases hdebut with ⟨e, hz, hd⟩ | ⟨⟨r', hz⟩, hd, hshown⟩
  · cases hd
    rw [hz]
    exact .inl ⟨e, rfl, rfl⟩
  · rw [hz]
    cases r with
    | ok r => exact .inr ⟨r, p, rfl, hd.symm, hshown⟩
    | error e => exact .inl ⟨e, rfl, hd.symm⟩

theorem turned_trigger (text : String) (n : Nat) : (Call.trigger text).turned text n = n + 1 :=
  if_pos rfl

theorem turned_reset (text : String) (n : Nat) : (Call.reset text).turned text n = 0 := if_pos rfl

theorem turned_of_not_concerns (hc : c.concerns text = false) (n : Nat) :
    c.turned text n = n := by
  cases c with
  | trigger t => exact if_neg (Ne.symm (ne_of_not_concerns hc rfl))
  | reset t => exact if_neg (Ne.symm (ne_of_not_concerns hc rfl))
  | resetAll => cases hc
  | _ => rfl

theorem shown_first (hp : Notation.parse text.toList = .ok parsed) (hs : parsed.isStateful = true)
    (hown : own = derivedSeed seed text.toList)
    (hk : (readAlone seed text advancing none).2 = some p) :
    Shown parsed seed own (counted advancing 0) p := by
  rcases readAlone_none hp hs hown advancing with ⟨e, ha, -⟩ | ⟨r, q, ha, -, hshown⟩
  · rw [ha] at hk
    cases hk
  · rw [ha] at hk
    cases hk
    exact hshown

theorem shown_next {q : Performance} (hp : parsed.Shaped) (h : Shown parsed seed own n q)
    (text : String) (advancing : Bool)
    (hk : (readAlone seed text advancing (some q)).2 = some p) :
    Shown parsed seed own (counted advancing n) p := by
  have hstands := (readAlone_some hp h text advancing).2
  rw [hk] at hstands
  exact hstands

/-- What a call that concerns a text leaves of it fits what it makes of the count. -/
theorem shown_alone (hp : Notation.parse text.toList = .ok parsed) (hs : parsed.isStateful = true)
    (hown : own = derivedSeed seed text.toList) (hc : c.concerns text = true)
    (h : Stands parsed seed own n? p?) (hk : (c.alone seed text p?).2 = some p) :
    Shown parsed seed own (c.turned text (n?.getD 0)) p := by
  have hshaped := parse_shaped hp
  match n?, p?, h with
  | none, none, _ =>
    cases c with
    | parse t => exact shown_first hp hs hown hk
    | trigger t =>
      obtain rfl := (concerns_of_text? rfl).1 hc
      rw [turned_trigger]
      exact shown_first hp hs hown hk
    | _ => cases hk
  | some n, some q, h =>
    cases c with
    | parse t => exact shown_next hshaped h text false hk
    | trigger t =>
      obtain rfl := (concerns_of_text? rfl).1 hc
      rw [turned_trigger]
      exact shown_next hshaped h t true hk
    | reset t =>
      obtain rfl := (concerns_of_text? rfl).1 hc
      rw [turned_reset]
      cases hk
      exact shown_reset hshaped h
    | resetAll =>
      cases hk
      exact shown_reset hshaped h
    | forget t => cases hk
    | state t =>
      cases hk
      exact h

theorem turns?_cons (settings : Settings) (text : String) (c : Call) (h : List Call) :
    turns? settings text (c :: h) =
      if (after settings (c :: h)).store.contains text then
        some (c.turned text ((turns? settings text h).getD 0))
      else none := rfl

/-- The count of a text and its performance agree. -/
theorem stands_after (hp : Notation.parse text.toList = .ok parsed)
    (hs : parsed.isStateful = true) (settings : Settings) (h : List Call) :
    Stands parsed settings.seed (derivedSeed settings.seed text.toList) (turns? settings text h)
      ((after settings h).store.peek? text) := by
  induction h with
  | nil => exact trivial
  | cons c h ih =>
    rw [turns?_cons, ← Store.peek?_isSome]
    cases hk : (after settings (c :: h)).store.peek? text with
    | none => exact trivial
    | some p =>
      rw [Option.isSome_some, if_pos rfl]
      cases hc : c.concerns text with
      | true =>
        rw [after, (serve_alone hc).2, after_seed] at hk
        exact shown_alone hp hs rfl hc ih hk
      | false =>
        rw [turned_of_not_concerns hc]
        rcases serve_other (s := after settings h) hc with hq | hq
        · rw [after, hq] at hk
          rw [hk] at ih
          obtain ⟨n, hn, hshown⟩ := stands_some ih
          rw [hn]
          exact hshown
        · rw [after, hq] at hk
          cases hk

/-- Just the texts that are kept have a count. -/
theorem turns?_isSome (settings : Settings) (text : String) (h : List Call) :
    (turns? settings text h).isSome = (after settings h).store.contains text := by
  cases h with
  | nil => rfl
  | cons c h =>
    rw [turns?_cons]
    split
    · next hk => rw [hk, Option.isSome_some]
    · next hk => rw [Bool.eq_false_iff.2 hk, Option.isSome_none]

theorem contains_of_turns (hn : turns? settings text h = some n) :
    (after settings h).store.contains text = true := by
  rw [← turns?_isSome, hn, Option.isSome_some]

theorem not_contains_of_turns (hn : turns? settings text h = none) :
    (after settings h).store.contains text = false := by
  rw [← turns?_isSome, hn, Option.isSome_none]

theorem contains_of_kept {later : List Call} (hk : Kept settings text h later) :
    (after settings h).store.contains text = true := by
  induction later with
  | nil => exact hk
  | cons c later ih => exact ih hk.2

theorem turns?_concerns (hn : turns? settings text h = some n) (hc : c.concerns text = true)
    (hf : c ≠ .forget text) : turns? settings text (c :: h) = some (c.turned text n) := by
  rw [turns?_cons, after, contains_serve_of_concerns hc hf (contains_of_turns hn), if_pos rfl, hn,
    Option.getD_some]

/-- However often a kept text is parsed, that is no trigger. -/
theorem turns?_parses (hn : turns? settings text h = some n) (k : Nat) :
    turns? settings text (List.replicate k (.parse text) ++ h) = some n := by
  induction k with
  | zero => exact hn
  | succ k ih =>
    rw [List.replicate_succ, List.cons_append]
    exact turns?_concerns ih ((concerns_of_text? rfl).2 rfl) (by simp)

/-- While a text is kept, the count goes on by the calls alone. -/
theorem turns?_append {later : List Call} (hn : turns? settings text h = some n)
    (hk : Kept settings text h later) :
    turns? settings text (later ++ h) = some (later.foldr (fun c n => c.turned text n) n) := by
  induction later with
  | nil => exact hn
  | cons c later ih =>
    rw [List.cons_append, turns?_cons, ih hk.2, ← List.cons_append, if_pos hk.1, List.foldr_cons,
      Option.getD_some]

/-- What a text means in a session after a number of triggers. -/
def meaning (settings : Settings) (text : String) (parsed : Parsed) (n : Nat) :
    Except NotationError Reading :=
  parsed.readingAfter settings.seed (derivedSeed settings.seed text.toList) n

section Reading

variable (hp : Notation.parse text.toList = .ok parsed) (hs : parsed.isStateful = true)

include hp hs

theorem shown_of_turns (hn : turns? settings text h = some n) :
    ∃ p, (after settings h).store.peek? text = some p ∧
      Shown parsed settings.seed (derivedSeed settings.seed text.toList) n p := by
  have hstands := stands_after hp hs settings h
  obtain ⟨p, hk⟩ := Option.isSome_iff_exists.1
    ((Store.peek?_isSome ..).trans (contains_of_turns hn))
  rw [hn, hk] at hstands
  exact ⟨p, hk, hstands⟩

theorem read_of_turns (hn : turns? settings text h = some n) (advancing : Bool) :
    ((after settings h).read text advancing).1 =
      meaning settings text parsed (counted advancing n) := by
  obtain ⟨p, hk, hshown⟩ := shown_of_turns hp hs hn
  rw [(read_alone _ text advancing).1, hk, after_seed]
  exact (readAlone_some (parse_shaped hp) hshown text advancing).1

theorem read_first (hn : turns? settings text h = none) (advancing : Bool) :
    ((after settings h).read text advancing).1 =
      firstReading parsed settings.seed (derivedSeed settings.seed text.toList) advancing := by
  rw [(read_alone _ text advancing).1,
    Store.peek?_eq_none_iff.2 (not_contains_of_turns hn), after_seed]
  rcases readAlone_none hp hs rfl advancing with ⟨e, ha, hf⟩ | ⟨r, p, ha, hf, -⟩
  · rw [ha, hf]
  · rw [ha, hf]

/-- A text that is kept from its first reading on could be shown at its start. -/
theorem meaning_zero (hn : turns? settings text h = none)
    (hn' : turns? settings text (.parse text :: h) = some n) :
    n = 0 ∧ ∃ r, meaning settings text parsed 0 = .ok r := by
  have hk := contains_of_turns hn'
  rw [turns?_cons, if_pos hk, hn] at hn'
  refine ⟨(Option.some.inj hn').symm, ?_⟩
  have hpeek := Store.peek?_eq_none_iff.2 (not_contains_of_turns hn)
  rw [after, ← Store.peek?_isSome, (serve_alone ((concerns_of_text? rfl).2 rfl)).2, hpeek,
    after_seed] at hk
  change (readAlone settings.seed text false none).2.isSome = true at hk
  rcases readAlone_none hp hs rfl false with ⟨e, ha, -⟩ | ⟨r, p, ha, hf, -⟩
  · rw [ha] at hk
    cases hk
  · cases hm : meaning settings text parsed 0 with
    | ok r => exact ⟨r, rfl⟩
    | error e =>
      rw [firstReading, ← meaning, hm] at hf
      cases hf

theorem sameReadings_of_turns (hseed : settings'.seed = settings.seed)
    (hn : turns? settings text h = some n) (hn' : turns? settings' text h' = some n) :
    SameReadings text (after settings h) (after settings' h') := by
  constructor
  · refine (read_of_turns hp hs hn false).trans (Eq.trans ?_ (read_of_turns hp hs hn' false).symm)
    rw [meaning, meaning, hseed]
  · refine (read_of_turns hp hs hn true).trans (Eq.trans ?_ (read_of_turns hp hs hn' true).symm)
    rw [meaning, meaning, hseed]

end Reading

/-- All that the readings of a text depend on is its count. Parsing it changes nothing, a reset puts
it back to where it was first read, and a first trigger comes to the same as parsing it before. -/
theorem readings_by_turns (hp : Notation.parse text.toList = .ok parsed)
    (hs : parsed.isStateful = true) (settings : Settings) (h : List Call) :
    (∀ n, turns? settings text h = some n →
      (∃ p, (after settings h).store.peek? text = some p ∧ p.index = n % parsed.sceneCount) ∧
      ((after settings h).parse text).1 = meaning settings text parsed n ∧
      ((after settings h).trigger text).1 = meaning settings text parsed (n + 1)) ∧
    (turns? settings text h = none →
      ((after settings h).parse text).1 = meaning settings text parsed 0 ∧
      ((after settings h).trigger text).1 =
        (do let _ ← meaning settings text parsed 0; meaning settings text parsed 1) ∧
      ((after settings h).trigger text).1 = ((after settings (.parse text :: h)).trigger text).1) ∧
    (∀ n k later, turns? settings text h = some n → Kept settings text h later →
      Kept settings text (List.replicate k (.parse text) ++ h) later →
      SameReadings text (after settings (later ++ (List.replicate k (.parse text) ++ h)))
        (after settings (later ++ h))) ∧
    (∀ n c later settings' h', turns? settings text h = some n →
      c = .reset text ∨ c = .resetAll → settings'.seed = settings.seed →
      turns? settings' text h' = none → Kept settings text (c :: h) later →
      Kept settings' text (.parse text :: h') later →
      SameReadings text (after settings (later ++ c :: h))
        (after settings' (later ++ .parse text :: h'))) := by
  refine ⟨?_, ?_, ?_, ?_⟩
  · intro n hn
    obtain ⟨p, hk, hshown⟩ := shown_of_turns hp hs hn
    exact ⟨⟨p, hk, hshown.index_eq⟩, read_of_turns hp hs hn false, read_of_turns hp hs hn true⟩
  · intro hn
    refine ⟨?_, read_first hp hs hn true, ?_⟩
    · refine (read_first hp hs hn false).trans ?_
      rw [firstReading, ← meaning]
      cases hm : meaning settings text parsed 0 with
      | error e => rfl
      | ok r => exact hm
    · refine (read_first hp hs hn true).trans (Eq.symm ?_)
      cases hn' : turns? settings text (.parse text :: h) with
      | none => exact read_first hp hs hn' true
      | some n =>
        obtain ⟨rfl, r, hr⟩ := meaning_zero hp hs hn hn'
        refine (read_of_turns hp hs hn' true).trans ?_
        rw [firstReading, ← meaning, hr]
        rfl
  · intro n k later hn hk hk'
    exact sameReadings_of_turns hp hs rfl (turns?_append (turns?_parses hn k) hk')
      (turns?_append hn hk)
  · intro n c later settings' h' hn hc hseed hn' hk hk'
    have hreset : turns? settings text (c :: h) = some 0 := by
      rcases hc with rfl | rfl
      · rw [turns?_concerns hn ((concerns_of_text? rfl).2 rfl) (by simp), turned_reset]
      · exact turns?_concerns hn rfl (by simp)
    have hfresh : turns? settings' text (.parse text :: h') = some 0 := by
      rw [turns?_cons, if_pos (contains_of_kept hk'), hn']
      rfl
    exact sameReadings_of_turns hp hs hseed (turns?_append hreset hk) (turns?_append hfresh hk')

/-- Two triggers of a text, with another one parsed in between, and then a reset. -/
theorem readings_by_turns_of_two :
    ∃ parsed, Notation.parse "E(1,4)>4|0000".toList = .ok parsed ∧
      ((after {} [.trigger "E(1,4)>4|0000", .parse "0|1", .trigger "E(1,4)>4|0000"]).parse
        "E(1,4)>4|0000").1 = meaning {} "E(1,4)>4|0000" parsed 2 ∧
      SameReadings "E(1,4)>4|0000"
        (after {} [.resetAll, .trigger "E(1,4)>4|0000", .parse "0|1", .trigger "E(1,4)>4|0000"])
        (after {} [.parse "E(1,4)>4|0000"]) := by
  obtain ⟨parsed, hp, hs⟩ : Keepable "E(1,4)>4|0000" := by decide +kernel
  obtain ⟨hcount, -, -, hreset⟩ := readings_by_turns hp hs {}
    [.trigger "E(1,4)>4|0000", .parse "0|1", .trigger "E(1,4)>4|0000"]
  have hn : turns? {} "E(1,4)>4|0000"
      [.trigger "E(1,4)>4|0000", .parse "0|1", .trigger "E(1,4)>4|0000"] = some 2 := by
    decide +kernel
  refine ⟨parsed, hp, (hcount 2 hn).2.1, ?_⟩
  exact hreset 2 .resetAll [] {} [] hn (.inr rfl) rfl rfl (by unfold Kept; decide +kernel)
    (by unfold Kept; decide +kernel)

end Rhythm.Session
