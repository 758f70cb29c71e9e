import Rhythm.Proofs.Performance.Alike
import Rhythm.Proofs.Session.Turns

/-! What a session answers does not depend on its seed, unless a text draws from it. -/
namespace Rhythm.Session

open Notation Performance Rhythm.Random

variable {settings settings' : Settings} {seed : UInt64} {s t : Session} {text : String} {c : Call}
  {h : List Call} {parsed : Parsed} {n : Nat} {test : Expr → Bool}

/-- Nothing that the text says passes a test. -/
def Lacks (test : Expr → Bool) (text : String) : Prop :=
  ∀ parsed, Notation.parse text.toList = .ok parsed → parsed.expr.anyPart test = false

instance (test : Expr → Bool) (text : String) : Decidable (Lacks test text) :=
  match hp : Notation.parse text.toList with
  | .error e => .isTrue (by
    intro parsed hp'
    cases hp.symm.trans hp')
  | .ok parsed => decidable_of_iff (parsed.expr.anyPart test = false) (by
    constructor
    · intro h parsed' hp'
      cases hp.symm.trans hp'
      exact h
    · intro h
      exact h parsed hp)

/-- The answers to calls, the latest first. -/
def answers (settings : Settings) : List Call → List Answer
  | [] => []
  | c :: h => ((after settings h).serve c).1 :: answers settings h

/-- Sessions that keep the same texts, used alike, with performances alike. -/
def Alike (s t : Session) : Prop := Store.Alike Performance.Alike s.store t.store

theorem alike_introduce (h : Alike s t) (hl : Lacks Expr.draws text) (advancing : Bool) :
    (s.introduce text advancing).1 = (t.introduce text advancing).1 ∧
      Alike (s.introduce text advancing).2 (t.introduce text advancing).2 := by
  unfold introduce
  cases hp : Notation.parse text.toList with
  | error err => exact ⟨rfl, h⟩
  | ok parsed =>
    have hfixed := hl parsed hp
    dsimp only
    split
    · have hunseeded : ∀ e : Expr, e.draws = false → e.isUnseeded = false :=
        fun _ h => (Bool.or_eq_false_iff.1 h).1
      have heval := Expr.eval_eq_of_seeded hunseeded hfixed s.seed t.seed
      exact ⟨congrArg (Except.map Reading.plain) heval, h⟩
    · obtain ⟨hresult, halike⟩ := alike_debut (Performance.alike_start hfixed
        (derivedSeed s.seed text.toList) (derivedSeed t.seed text.toList)) s.seed t.seed advancing
      generalize (Performance.start parsed (derivedSeed s.seed text.toList)).debut s.seed
        advancing = x at hresult halike
      generalize (Performance.start parsed (derivedSeed t.seed text.toList)).debut t.seed
        advancing = y at hresult halike
      obtain ⟨r, p⟩ := x
      obtain ⟨r', q⟩ := y
      obtain rfl : r = r' := hresult
      cases r with
      | error err => exact ⟨rfl, h⟩
      | ok r => exact ⟨rfl, (Store.Alike.insert h text halike).2⟩

theorem alike_read (h : Alike s t) (hl : Lacks Expr.draws text) (advancing : Bool) :
    (s.read text advancing).1 = (t.read text advancing).1 ∧
      Alike (s.read text advancing).2 (t.read text advancing).2 := by
  obtain ⟨hanswer, hstores⟩ := Store.Alike.access h text
    (fun p q hpq => alike_perform hpq s.seed t.seed advancing)
  unfold read
  generalize s.store.access text (Performance.perform s.seed advancing) = x at hanswer hstores
  generalize t.store.access text (Performance.perform t.seed advancing) = y at hanswer hstores
  obtain ⟨r, store⟩ := x
  obtain ⟨r', store'⟩ := y
  obtain rfl : r = r' := hanswer
  cases r with
  | some r => exact ⟨rfl, hstores⟩
  | none =>
    exact alike_introduce (s := { s with store }) (t := { t with store := store' }) hstores hl
      advancing

theorem summary_alike {p q : Performance} (h : Performance.Alike p q) : summary p = summary q := by
  unfold summary
  rw [h.kind?_eq, h.triggers_eq, h.index_eq, h.scenes.length_eq, h.shown?_eq]

/-- A call that is about nothing that draws from a seed is answered alike. -/
theorem alike_serve (h : Alike s t) (hc : ∀ text, c.text? = some text → Lacks Expr.draws text) :
    (s.serve c).1 = (t.serve c).1 ∧ Alike (s.serve c).2 (t.serve c).2 := by
  cases c with
  | parse text =>
    obtain ⟨hresult, halike⟩ := alike_read h (hc text rfl) false
    exact ⟨congrArg Answer.reading hresult, halike⟩
  | trigger text =>
    obtain ⟨hresult, halike⟩ := alike_read h (hc text rfl) true
    exact ⟨congrArg Answer.reading hresult, halike⟩
  | reset text =>
    rw [serve, serve, reset_eq, reset_eq]
    refine ⟨congrArg Answer.found (Store.Alike.contains_eq h text), ?_⟩
    have hreset : ∀ p q : Performance, p.Alike q → () = () ∧ p.reset.Alike q.reset :=
      fun p q hpq => ⟨rfl, Performance.alike_reset hpq⟩
    exact (Store.Alike.access h text hreset).2
  | resetAll => exact ⟨rfl, Store.Alike.mapValues h fun p q => Performance.alike_reset⟩
  | forget text =>
    exact ⟨congrArg Answer.found (Store.Alike.contains_eq h text), Store.Alike.remove h text⟩
  | state text =>
    refine ⟨congrArg Answer.summary ?_, h⟩
    change (s.store.peek? text).map summary = (t.store.peek? text).map summary
    rcases rel_cases (Store.Alike.peek? h text) with ⟨hs, ht⟩ | ⟨p, q, hs, ht, hpq⟩
    · rw [hs, ht]
    · rw [hs, ht, Option.map_some, Option.map_some, summary_alike hpq]

/-- Sessions of the same capacity and policy stay alike. -/
theorem alike_after (hcapacity : settings.capacity = settings'.capacity)
    (hpolicy : settings.eviction = settings'.eviction)
    (hh : ∀ c ∈ h, ∀ text, c.text? = some text → Lacks Expr.draws text) :
    answers settings h = answers settings' h ∧ Alike (after settings h) (after settings' h) := by
  induction h with
  | nil =>
    refine ⟨rfl, ?_⟩
    unfold Alike after Session.new
    rw [hcapacity, hpolicy]
    exact Store.alike_empty _ _
  | cons c h ih =>
    obtain ⟨hanswers, halike⟩ := ih fun d hd => hh d (List.mem_cons_of_mem _ hd)
    obtain ⟨hanswer, hnext⟩ := alike_serve halike (hh c List.mem_cons_self)
    rw [answers, answers, hanswer, hanswers]
    exact ⟨rfl, hnext⟩

theorem turns?_of_no_trigger (hh : .trigger text ∉ h) (hn : turns? settings text h = some n) :
    n = 0 := by
  induction h generalizing n with
  | nil => cases hn
  | cons c h ih =>
    have hprev : (turns? settings text h).getD 0 = 0 := by
      cases hm : turns? settings text h with
      | none => rfl
      | some m => exact ih (fun hmem => hh (List.mem_cons_of_mem _ hmem)) hm
    rw [turns?_cons, hprev] at hn
    split at hn
    · rw [← Option.some.inj hn]
      cases c with
      | trigger t =>
        refine if_neg ?_
        rintro rfl
        exact hh List.mem_cons_self
      | reset t => exact ite_self 0
      | _ => rfl
    · cases hn

/-- Before it is triggered, a text to be kept shows its start. -/
theorem parse_at_start (hp : Notation.parse text.toList = .ok parsed)
    (hs : parsed.isStateful = true) (hh : .trigger text ∉ h) :
    ((after settings h).parse text).1 = meaning settings text parsed 0 := by
  cases hn : turns? settings text h with
  | some n =>
    obtain rfl := turns?_of_no_trigger hh hn
    exact read_of_turns hp hs hn false
  | none =>
    refine (read_first hp hs hn false).trans ?_
    rw [firstReading, ← meaning]
    cases hm : meaning settings text parsed 0 with
    | error err => rfl
    | ok r => exact hm

/-- At its start a text without random calls that draw from a seed is the same for every seed. -/
theorem meaning_zero_eq (hfixed : parsed.expr.anyPart Expr.isUnseeded = false)
    (settings settings' : Settings) (text : String) :
    meaning settings text parsed 0 = meaning settings' text parsed 0 := by
  have hscene : (parsed.sceneAfter 0).anyPart Expr.isUnseeded = false :=
    parts_fixed hfixed _ (List.get_mem ..)
  have hcovers : ∀ own own', Expr.Covers Expr.isUnseeded (fun _ _ => True) (afterTurns own 0)
      (afterTurns own' 0) :=
    fun own own' => ⟨fun _ h => h, fun _ _ _ _ _ _ _ => ⟨rfl, trivial⟩⟩
  unfold meaning Parsed.readingAfter Parsed.resultAfter
  rw [Nat.zero_div, (Expr.evalWith_agree _ settings'.seed (hcovers _ _) hscene trivial).1]

/-- Before its first trigger a text that has no random call without a seed is the same whatever the
settings are. -/
theorem parse_before_trigger (hl : Lacks Expr.isUnseeded text) {h' : List Call}
    (hh : .trigger text ∉ h) (hh' : .trigger text ∉ h') :
    ((after settings h).parse text).1 = ((after settings' h').parse text).1 := by
  by_cases hk : Keepable text
  · obtain ⟨parsed, hp, hs⟩ := hk
    rw [parse_at_start hp hs hh, parse_at_start hp hs hh',
      meaning_zero_eq (hl parsed hp) settings settings' text]
  · have hfresh : ∀ settings h, ((after settings h).parse text).1 =
        (readAlone settings.seed text false none).1 := by
      intro settings h
      have hnone : (after settings h).store.peek? text = none := by
        rw [Store.peek?_eq_none_iff, ← Bool.not_eq_true]
        intro hcontains
        exact hk (keepable_of_contains hcontains)
      refine (read_alone _ text false).1.trans ?_
      rw [hnone, after_seed]
    rw [hfresh, hfresh]
    unfold readAlone
    cases hp : Notation.parse text.toList with
    | error err => rfl
    | ok parsed =>
      have hs : parsed.isStateful = false := by
        rw [← Bool.not_eq_true]
        intro hs
        exact hk ⟨parsed, hp, hs⟩
      have heval := Expr.eval_eq_of_seeded (fun _ h => h) (hl parsed hp) settings.seed
        settings'.seed
      dsimp only
      rw [hs, Bool.not_false, if_pos rfl, if_pos rfl, heval]

/-- The seed matters only to random calls without a seed and to lengthening. Sessions that differ in
their seeds alone give the same answers to calls about other texts, and keep and use them alike; and
until a text is triggered, lengthening makes no difference to it either. -/
theorem seed_only_for_draws (settings : Settings) (seed : UInt64) :
    (∀ h : List Call,
      (∀ c ∈ h, ∀ text, c.text? = some text → Lacks Expr.draws text) →
      answers { settings with seed } h = answers settings h ∧
      (after { settings with seed } h).store.keys = (after settings h).store.keys ∧
      ∀ text, (after { settings with seed } h).store.usage? text =
        (after settings h).store.usage? text) ∧
    ∀ (settings' : Settings) (h h' : List Call) (text : String), Lacks Expr.isUnseeded text →
      .trigger text ∉ h → .trigger text ∉ h' →
      ((after settings h).parse text).1 = ((after settings' h').parse text).1 := by
  constructor
  · intro h hh
    have halike : ∀ t : Settings, t.capacity = settings.capacity → t.eviction = settings.eviction →
        answers t h = answers settings h ∧ Alike (after t h) (after settings h) :=
      fun t hcapacity hpolicy => alike_after hcapacity hpolicy hh
    obtain ⟨hanswers, hstores⟩ := halike { settings with seed } rfl rfl
    exact ⟨hanswers, Store.Alike.keys_eq hstores, Store.Alike.usage?_eq hstores⟩
  · intro settings' h h' text hl hh hh'
    exact parse_before_trigger hl hh hh'

/-- A transformation next to a seeded random call, and a text that lengthens. -/
theorem seed_only_for_draws_of_two :
    answers { seed := 7 } [.trigger "E(1,4)>4|R(2,4,5)", .parse "E(1,4)>4|R(2,4,5)"] =
      answers {} [.trigger "E(1,4)>4|R(2,4,5)", .parse "E(1,4)>4|R(2,4,5)"] ∧
    ((after {} [.reset "10*4"]).parse "10*4").1 = ((after { seed := 7 } []).parse "10*4").1 := by
  obtain ⟨hanswers, hstart⟩ := seed_only_for_draws {} 7
  refine ⟨(hanswers [.trigger "E(1,4)>4|R(2,4,5)", .parse "E(1,4)>4|R(2,4,5)"] ?_).1, ?_⟩
  · have hlacks : Lacks Expr.draws "E(1,4)>4|R(2,4,5)" := by decide +kernel
    intro c hc text htext
    simp only [List.mem_cons, List.not_mem_nil, or_false] at hc
    rcases hc with rfl | rfl
    · rw [← Option.some.inj htext]
      exact hlacks
    · rw [← Option.some.inj htext]
      exact hlacks
  · exact hstart { seed := 7 } [.reset "10*4"] [] "10*4" (by decide +kernel) (by decide) (by decide)

end Rhythm.Session
