import Rhythm.Session
import Rhythm.Proofs.Store.Bound

/-! The calls of a session, and what each does to the performance of one text. -/
namespace Rhythm.Session

open Notation Rhythm.Random

/-- The calls of a session. The answer to a trigger is all of the reading. -/
inductive Call
  | parse (text : String)
  | trigger (text : String)
  | reset (text : String)
  | resetAll
  | forget (text : String)
  | state (text : String)
deriving DecidableEq

inductive Answer
  | reading (result : Except NotationError Reading)
  | found (found : Bool)
  | summary (summary : Option Summary)
  | done

def serve (s : Session) : Call → Answer × Session
  | .parse text => let (r, s) := s.parse text; (.reading r, s)
  | .trigger text => let (r, s) := s.trigger text; (.reading r, s)
  | .reset text => let (b, s) := s.reset text; (.found b, s)
  | .resetAll => (.done, s.resetAll)
  | .forget text => let (b, s) := s.forget text; (.found b, s)
  | .state text => (.summary (s.state? text), s)

/-- The session after calls, the latest first. -/
def after (settings : Settings) : List Call → Session
  | [] => .new settings
  | c :: h => ((after settings h).serve c).2

namespace Call

/-- The text of a call, unless it is about all of them. -/
def text? : Call → Option String
  | .parse text | .trigger text | .reset text | .forget text | .state text => some text
  | .resetAll => none

/-- Whether a call asks what a text means. -/
def isReading : Call → Bool
  | .parse _ | .trigger _ => true
  | _ => false

def concerns (text : String) (c : Call) : Bool :=
  match c.text? with
  | some t => t = text
  | none => true

end Call

/-- A call drops a text that nobody asked to forget. -/
def Evicts (s : Session) (c : Call) (text : String) : Prop :=
  s.store.contains text = true ∧ (s.serve c).2.store.contains text = false ∧ c ≠ .forget text

instance (s : Session) (c : Call) (text : String) : Decidable (Evicts s c text) :=
  inferInstanceAs (Decidable (_ ∧ _ ∧ _))

/-- The reading of a text from the performance it has, if it has one, and what it has then. -/
def readAlone (seed : UInt64) (text : String) (advancing : Bool) :
    Option Performance → Except NotationError Reading × Option Performance
  | some p => let (r, p) := p.perform seed advancing; (r, some p)
  | none =>
    match Notation.parse text.toList with
    | .error e => (.error e, none)
    | .ok parsed =>
      if !parsed.isStateful then ((parsed.expr.eval seed).map Reading.plain, none)
      else
        match (Performance.start parsed (derivedSeed seed text.toList)).debut seed advancing with
        | (.ok r, p) => (.ok r, some p)
        | (.error e, _) => (.error e, none)

def summary (p : Performance) : Summary :=
  ⟨p.kind?, p.triggers, p.index, p.scenes.length, p.shown?⟩

/-- What a call that concerns a text does if there is no other text. -/
def Call.alone (seed : UInt64) (text : String) (p? : Option Performance) :
    Call → Answer × Option Performance
  | .parse _ => let (r, p?) := readAlone seed text false p?; (.reading r, p?)
  | .trigger _ => let (r, p?) := readAlone seed text true p?; (.reading r, p?)
  | .reset _ => (.found p?.isSome, p?.map .reset)
  | .resetAll => (.done, p?.map .reset)
  | .forget _ => (.found p?.isSome, none)
  | .state _ => (.summary (p?.map summary), p?)

variable {s : Session} {text t : String} {advancing : Bool} {c : Call}

/-- What the first reading of a text can come to: a new performance, or nothing to be kept. -/
theorem introduce_cases (s : Session) (text : String) (advancing : Bool) :
    (∃ r p, readAlone s.seed text advancing none = (.ok r, some p) ∧
      s.introduce text advancing = (.ok r, { s with store := (s.store.insert text p).2 })) ∨
    (∃ r, readAlone s.seed text advancing none = (r, none) ∧
      s.introduce text advancing = (r, s)) := by
  unfold introduce readAlone
  cases Notation.parse text.toList with
  | error e => exact .inr ⟨_, rfl, rfl⟩
  | ok parsed =>
    dsimp only
    by_cases hs : (!parsed.isStateful) = true
    · rw [if_pos hs, if_pos hs]
      exact .inr ⟨_, rfl, rfl⟩
    · rw [if_neg hs, if_neg hs]
      rcases (Performance.start parsed (derivedSeed s.seed text.toList)).debut s.seed advancing
        with ⟨r, p⟩
      cases r with
      | ok r => exact .inl ⟨r, p, rfl, rfl⟩
      | error e => exact .inr ⟨_, rfl, rfl⟩

theorem introduce_of_kept {r : Reading} {p : Performance}
    (ha : readAlone s.seed text advancing none = (.ok r, some p)) :
    s.introduce text advancing = (.ok r, { s with store := (s.store.insert text p).2 }) := by
  rcases introduce_cases s text advancing with ⟨r', p', ha', hi⟩ | ⟨r', ha', -⟩
  · rw [ha] at ha'
    cases ha'
    exact hi
  · rw [ha] at ha'
    cases ha'

theorem introduce_alone (hn : s.store.peek? text = none) :
    (s.introduce text advancing).1 = (readAlone s.seed text advancing none).1 ∧
      (s.introduce text advancing).2.store.peek? text =
        (readAlone s.seed text advancing none).2 := by
  rcases introduce_cases s text advancing with ⟨r, p, ha, hi⟩ | ⟨r, ha, hi⟩
  · rw [ha, hi]
    exact ⟨rfl, by rw [Store.peek?_insert, if_pos rfl]⟩
  · rw [ha, hi]
    exact ⟨rfl, hn⟩

theorem read_of_peek? {p : Performance} (hp : s.store.peek? text = some p) :
    s.read text advancing = ((p.perform s.seed advancing).1,
      { s with store := (s.store.access text (Performance.perform s.seed advancing)).2 }) := by
  have hr := Store.access_fst s.store text (Performance.perform s.seed advancing)
  rw [hp, Option.map_some] at hr
  unfold read
  split
  · next r store ha =>
    rw [ha] at hr ⊢
    cases hr
    rfl
  · next ha =>
    rw [ha] at hr
    cases hr

theorem read_of_not_contains (hn : s.store.contains text = false) :
    s.read text advancing = { s with store := s.store.tick }.introduce text advancing := by
  have hr := Store.access_fst s.store text (Performance.perform s.seed advancing)
  rw [Store.peek?_eq_none_iff.2 hn, Option.map_none] at hr
  have ha := Store.access_snd_of_not_contains hn (Performance.perform s.seed advancing)
  unfold read
  split
  · next hacc =>
    rw [hacc] at hr
    cases hr
  · next hacc =>
    rw [hacc] at ha
    dsimp only at ha
    rw [ha]

theorem read_alone (s : Session) (text : String) (advancing : Bool) :
    (s.read text advancing).1 = (readAlone s.seed text advancing (s.store.peek? text)).1 ∧
      (s.read text advancing).2.store.peek? text =
        (readAlone s.seed text advancing (s.store.peek? text)).2 := by
  cases hp : s.store.peek? text with
  | some p =>
    rw [read_of_peek? hp]
    refine ⟨rfl, ?_⟩
    rw [Store.peek?_access, if_pos rfl, hp]
    rfl
  | none =>
    rw [read_of_not_contains (Store.peek?_eq_none_iff.1 hp)]
    exact introduce_alone (s := { s with store := s.store.tick }) hp

theorem concerns_of_text? (ht : c.text? = some t) : c.concerns text = true ↔ t = text := by
  simp [Call.concerns, ht]

theorem reset_eq (s : Session) (text : String) : s.reset text =
    (s.store.contains text,
      { s with store := (s.store.access text fun p => ((), p.reset)).2 }) := by
  rw [← Store.peek?_isSome]
  unfold reset
  rcases ha : s.store.access text fun p => ((), p.reset) with ⟨found, store⟩
  have hf := Store.access_fst s.store text fun p => ((), p.reset)
  rw [ha] at hf
  dsimp only at hf
  cases hf
  dsimp only
  rw [Option.isSome_map]

/-- A call that concerns a text answers it, and leaves it, as if there were no other text. -/
theorem serve_alone (hc : c.concerns text = true) :
    (s.serve c).1 = (c.alone s.seed text (s.store.peek? text)).1 ∧
      (s.serve c).2.store.peek? text = (c.alone s.seed text (s.store.peek? text)).2 := by
  cases c with
  | parse t =>
    obtain rfl := (concerns_of_text? rfl).1 hc
    obtain ⟨ha, hp⟩ := read_alone s t false
    exact ⟨congrArg Answer.reading ha, hp⟩
  | trigger t =>
    obtain rfl := (concerns_of_text? rfl).1 hc
    obtain ⟨ha, hp⟩ := read_alone s t true
    exact ⟨congrArg Answer.reading ha, hp⟩
  | reset t =>
    obtain rfl := (concerns_of_text? rfl).1 hc
    rw [serve, reset_eq]
    refine ⟨congrArg Answer.found (Store.peek?_isSome s.store t).symm, ?_⟩
    rw [Store.peek?_access, if_pos rfl]
    rfl
  | resetAll => exact ⟨rfl, Store.peek?_mapValues ..⟩
  | forget t =>
    obtain rfl := (concerns_of_text? rfl).1 hc
    refine ⟨congrArg Answer.found (Store.peek?_isSome s.store t).symm, ?_⟩
    change (s.store.remove t).peek? t = none
    rw [Store.peek?_remove, if_pos rfl]
  | state t =>
    obtain rfl := (concerns_of_text? rfl).1 hc
    exact ⟨rfl, rfl⟩

theorem introduce_other (ht : text ≠ t) :
    (s.introduce t advancing).2.store.peek? text = s.store.peek? text ∨
      (s.introduce t advancing).2.store.peek? text = none := by
  rcases introduce_cases s t advancing with ⟨r, p, -, hi⟩ | ⟨r, -, hi⟩
  · rw [hi, Store.peek?_insert, if_neg ht]
    split
    · exact .inr rfl
    · exact .inl rfl
  · rw [hi]
    exact .inl rfl

theorem read_other (ht : text ≠ t) :
    (s.read t advancing).2.store.peek? text = s.store.peek? text ∨
      (s.read t advancing).2.store.peek? text = none := by
  cases hp : s.store.peek? t with
  | some p =>
    rw [read_of_peek? hp]
    left
    change (s.store.access t _).2.peek? text = _
    rw [Store.peek?_access, if_neg ht]
  | none =>
    rw [read_of_not_contains (Store.peek?_eq_none_iff.1 hp)]
    exact introduce_other (s := { s with store := s.store.tick }) ht

theorem ne_of_not_concerns (hc : c.concerns text = false) (ht : c.text? = some t) : text ≠ t := by
  rintro rfl
  rw [(concerns_of_text? ht).2 rfl] at hc
  cases hc

theorem serve_unread (hc : c.concerns text = false) (hr : c.isReading = false) :
    (s.serve c).2.store.peek? text = s.store.peek? text := by
  cases c with
  | parse t => cases hr
  | trigger t => cases hr
  | reset t =>
    rw [serve, reset_eq]
    dsimp only
    rw [Store.peek?_access, if_neg (ne_of_not_concerns hc rfl)]
  | resetAll => cases hc
  | forget t =>
    change (s.store.remove t).peek? text = _
    rw [Store.peek?_remove, if_neg (ne_of_not_concerns hc rfl)]
  | state t => rfl

/-- A call that does not concern a text leaves it alone, or evicts it. -/
theorem serve_other (hc : c.concerns text = false) :
    (s.serve c).2.store.peek? text = s.store.peek? text ∨
      (s.serve c).2.store.peek? text = none := by
  cases hr : c.isReading with
  | false => exact .inl (serve_unread hc hr)
  | true =>
    cases c with
    | parse t => exact read_other (ne_of_not_concerns hc rfl)
    | trigger t => exact read_other (ne_of_not_concerns hc rfl)
    | _ => cases hr

theorem read_settings (s : Session) (text : String) (advancing : Bool) :
    (s.read text advancing).2.settings = s.settings := by
  cases hp : s.store.peek? text with
  | some p => rw [read_of_peek? hp]
  | none =>
    rw [read_of_not_contains (Store.peek?_eq_none_iff.1 hp)]
    rcases introduce_cases { s with store := s.store.tick } text advancing with
      ⟨r, p, -, hi⟩ | ⟨r, -, hi⟩ <;> rw [hi]

theorem serve_settings (s : Session) (c : Call) : (s.serve c).2.settings = s.settings := by
  cases c with
  | parse t => exact read_settings s t false
  | trigger t => exact read_settings s t true
  | reset t => rw [serve, reset_eq]
  | resetAll => rfl
  | forget t => rfl
  | state t => rfl

theorem after_settings (settings : Settings) (h : List Call) :
    (after settings h).settings = settings := by
  induction h with
  | nil => rfl
  | cons c h ih => exact (serve_settings _ c).trans ih

theorem after_seed (settings : Settings) (h : List Call) :
    (after settings h).seed = settings.seed := congrArg Settings.seed (after_settings settings h)

end Rhythm.Session
