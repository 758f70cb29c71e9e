import Rhythm.Proofs.Session.Calls

/-! The texts of a session do not interfere. -/
namespace Rhythm.Session

open Notation

/-- A text that is kept once it has been read. -/
def Keepable (text : String) : Prop :=
  ∃ parsed, Notation.parse text.toList = .ok parsed ∧ parsed.isStateful = true

instance (text : String) : Decidable (Keepable text) :=
  match hp : Notation.parse text.toList with
  | .error e => .isFalse (by
    rintro ⟨parsed, hp', -⟩
    cases hp.symm.trans hp')
  | .ok parsed => decidable_of_iff (parsed.isStateful = true) (by
    constructor
    · intro hs
      exact ⟨parsed, hp, hs⟩
    · rintro ⟨parsed', hp', hs⟩
      cases hp.symm.trans hp'
      exact hs)

/-- The answers to the calls that concern a text, the latest first. -/
def log (settings : Settings) (text : String) : List Call → List Answer
  | [] => []
  | c :: h =>
    if c.concerns text then ((after settings h).serve c).1 :: log settings text h
    else log settings text h

/-- No call evicts the text. -/
def Spared (settings : Settings) (text : String) : List Call → Prop
  | [] => True
  | c :: h => ¬ Evicts (after settings h) c text ∧ Spared settings text h

/-- The performance that calls leave a text if there is no other text. -/
def performedAlone (seed : UInt64) (text : String) : List Call → Option Performance
  | [] => none
  | c :: h => (c.alone seed text (performedAlone seed text h)).2

/-- The answers to calls if there is no other text. -/
def logAlone (seed : UInt64) (text : String) : List Call → List Answer
  | [] => []
  | c :: h => (c.alone seed text (performedAlone seed text h)).1 :: logAlone seed text h

variable {settings : Settings} {s : Session} {text t : String} {c : Call} {h : List Call}
  {advancing : Bool}

theorem serve_spared (hc : c.concerns text = false) (he : ¬ Evicts s c text) :
    (s.serve c).2.store.peek? text = s.store.peek? text := by
  rcases serve_other (s := s) hc with hp | hp
  · exact hp
  · by_contra hne
    apply he
    refine ⟨?_, Store.peek?_eq_none_iff.1 hp, ?_⟩
    · rw [← Bool.not_eq_false]
      intro hn
      exact hne (hp.trans (Store.peek?_eq_none_iff.2 hn).symm)
    · rintro rfl
      exact ne_of_not_concerns hc rfl rfl

/-- Unless it is evicted, a text has the performance that it would have alone. -/
theorem peek?_spared (hs : Spared settings text h) : (after settings h).store.peek? text =
    performedAlone settings.seed text (h.filter (·.concerns text)) := by
  induction h with
  | nil => rfl
  | cons c h ih =>
    have hp := ih hs.2
    cases hc : c.concerns text with
    | true =>
      rw [List.filter_cons_of_pos hc, performedAlone, after, (serve_alone hc).2, hp, after_seed]
    | false =>
      rw [List.filter_cons_of_neg (by simp [hc]), after, serve_spared hc hs.1, hp]

theorem log_spared (hs : Spared settings text h) :
    log settings text h = logAlone settings.seed text (h.filter (·.concerns text)) := by
  induction h with
  | nil => rfl
  | cons c h ih =>
    have hp := peek?_spared hs.2
    cases hc : c.concerns text with
    | true =>
      rw [List.filter_cons_of_pos hc, log, if_pos hc, logAlone, ih hs.2, (serve_alone hc).1, hp,
        after_seed]
    | false =>
      rw [List.filter_cons_of_neg (by simp [hc]), log, if_neg (by simp [hc]), ih hs.2]

theorem sound_read (hs : s.store.Sound) (text : String) (advancing : Bool) :
    (s.read text advancing).2.store.Sound := by
  cases hp : s.store.peek? text with
  | some p =>
    rw [read_of_peek? hp]
    exact Store.sound_access hs text _
  | none =>
    have ht : s.store.tick.Sound := Store.sound_of_keys_eq hs rfl rfl
    rw [read_of_not_contains (Store.peek?_eq_none_iff.1 hp)]
    rcases introduce_cases { s with store := s.store.tick } text advancing with
      ⟨r, p, -, hi⟩ | ⟨r, -, hi⟩
    · rw [hi]
      exact Store.sound_insert ht text p
    · rw [hi]
      exact ht

theorem sound_serve (hs : s.store.Sound) (c : Call) : (s.serve c).2.store.Sound := by
  cases c with
  | parse t => exact sound_read hs t false
  | trigger t => exact sound_read hs t true
  | reset t =>
    rw [serve, reset_eq]
    exact Store.sound_access hs t _
  | resetAll => exact Store.sound_mapValues hs _
  | forget t => exact Store.sound_remove hs t
  | state t => exact hs

theorem sound_after (settings : Settings) (h : List Call) : (after settings h).store.Sound := by
  induction h with
  | nil => exact Store.sound_empty _ _
  | cons c h ih => exact sound_serve ih c

/-- A call that concerns a kept text keeps it, unless it is to be forgotten. -/
theorem contains_serve_of_concerns (hc : c.concerns text = true) (hf : c ≠ .forget text)
    (hk : s.store.contains text = true) : (s.serve c).2.store.contains text = true := by
  rw [← Store.peek?_isSome] at hk ⊢
  obtain ⟨p, hp⟩ := Option.isSome_iff_exists.1 hk
  rw [(serve_alone hc).2, hp]
  cases c with
  | forget t =>
    obtain rfl := (concerns_of_text? rfl).1 hc
    exact absurd rfl hf
  | _ => rfl

/-- The only reading that evicts another text is one that puts its own in. -/
theorem read_evicts (hs : s.store.Sound) (ht : text ≠ t) (hk : s.store.contains text = true)
    (he : (s.read t advancing).2.store.contains text = false) :
    s.read t advancing = (s.forget text).2.read t advancing := by
  rw [← Store.peek?_eq_none_iff] at he
  obtain ⟨q, hq⟩ := Option.isSome_iff_exists.1 ((Store.peek?_isSome ..).trans hk)
  cases hp : s.store.peek? t with
  | some p =>
    rw [read_of_peek? hp] at he
    dsimp only at he
    rw [Store.peek?_access, if_neg ht, hq] at he
    cases he
  | none =>
    have hn := Store.peek?_eq_none_iff.1 hp
    have hn' : (s.store.remove text).contains t = false := by
      rw [← Store.peek?_eq_none_iff, Store.peek?_remove, if_neg (Ne.symm ht), hp]
    rw [read_of_not_contains hn] at he ⊢
    rcases introduce_cases { s with store := s.store.tick } t advancing with
      ⟨r, p, ha, hi⟩ | ⟨r, -, hi⟩
    · have hev : (s.store.tick.insert t p).1 = some text := by
        by_contra hne
        rw [hi] at he
        dsimp only at he
        rw [Store.peek?_insert, if_neg ht, if_neg hne, Store.peek?_tick, hq] at he
        cases he
      have hf : (s.forget text).2.read t advancing =
          (.ok r, { s with store := ((s.store.remove text).tick.insert t p).2 }) :=
        (read_of_not_contains hn').trans (introduce_of_kept ha)
      have hsound : s.store.tick.Sound := Store.sound_of_keys_eq hs rfl rfl
      rw [hi, hf]
      dsimp only
      rw [Store.insert_of_evicted hsound hev]
      rfl
    · rw [hi] at he
      dsimp only at he
      rw [Store.peek?_tick, hq] at he
      cases he

/-- To evict a text is to forget it first. -/
theorem serve_evicts (hs : s.store.Sound) (he : Evicts s c text) :
    s.serve c = (s.forget text).2.serve c := by
  obtain ⟨hk, hgone, hf⟩ := he
  cases hc : c.concerns text with
  | true =>
    rw [contains_serve_of_concerns hc hf hk] at hgone
    cases hgone
  | false =>
    cases hr : c.isReading with
    | false =>
      rw [← Store.peek?_isSome, serve_unread hc hr, Store.peek?_isSome, hk] at hgone
      cases hgone
    | true =>
      cases c with
      | parse t =>
        have hread := read_evicts hs (ne_of_not_concerns hc rfl) hk hgone
        rw [serve, serve, parse, hread]
        rfl
      | trigger t =>
        have hread := read_evicts hs (ne_of_not_concerns hc rfl) hk hgone
        rw [serve, serve, trigger, hread]
        rfl
      | _ => cases hr

theorem keepable_of_kept {seed : UInt64} {r : Except NotationError Reading} {p : Performance}
    (ha : readAlone seed text advancing none = (r, some p)) : Keepable text := by
  unfold readAlone at ha
  cases hp : Notation.parse text.toList with
  | error e =>
    rw [hp] at ha
    cases ha
  | ok parsed =>
    rw [hp] at ha
    dsimp only at ha
    split at ha
    · cases ha
    · next hs => exact ⟨parsed, hp, by simpa using hs⟩

theorem alone_keepable {seed : UInt64} {p : Performance}
    (ha : (c.alone seed text none).2 = some p) : Keepable text := by
  cases c with
  | parse t => exact keepable_of_kept (Prod.ext rfl ha)
  | trigger t => exact keepable_of_kept (Prod.ext rfl ha)
  | _ => cases ha

theorem keepable_of_contains (hk : (after settings h).store.contains text = true) :
    Keepable text := by
  induction h with
  | nil => cases hk
  | cons c h ih =>
    cases hp : (after settings h).store.peek? text with
    | some p => exact ih (by rw [← Store.peek?_isSome, hp]; rfl)
    | none =>
      rw [← Store.peek?_isSome] at hk
      obtain ⟨q, hq⟩ := Option.isSome_iff_exists.1 hk
      cases hc : c.concerns text with
      | true =>
        rw [after, (serve_alone hc).2, hp] at hq
        exact alone_keepable hq
      | false =>
        rw [after] at hq
        rcases serve_other hc with hs | hs
        · rw [hs, hp] at hq
          cases hq
        · rw [hs] at hq
          cases hq

theorem entries_read_of_not_keepable (hn : ¬ Keepable text)
    (hk : s.store.contains text = false) (advancing : Bool) :
    (s.read text advancing).2.store.entries = s.store.entries := by
  rw [read_of_not_contains hk]
  rcases introduce_cases { s with store := s.store.tick } text advancing with
    ⟨r, p, ha, -⟩ | ⟨r, -, hi⟩
  · exact absurd (keepable_of_kept ha) hn
  · rw [hi]
    rfl

/-- A text that is not kept changes no entry. -/
theorem entries_of_not_keepable (hn : ¬ Keepable text) (ht : c.text? = some text) :
    ((after settings h).serve c).2.store.entries = (after settings h).store.entries := by
  have hk : (after settings h).store.contains text = false := by
    rw [← Bool.not_eq_true]
    intro hk
    exact hn (keepable_of_contains hk)
  cases c with
  | parse t =>
    cases ht
    exact entries_read_of_not_keepable hn hk false
  | trigger t =>
    cases ht
    exact entries_read_of_not_keepable hn hk true
  | reset t =>
    cases ht
    rw [serve, reset_eq]
    dsimp only
    rw [Store.access_snd_of_not_contains hk]
    rfl
  | resetAll => cases ht
  | forget t =>
    cases ht
    exact congrArg Store.entries (Store.remove_of_not_contains hk)
  | state t => rfl

theorem after_append (settings : Settings) {h h' : List Call}
    (he : after settings h = after settings h') (later : List Call) :
    after settings (later ++ h) = after settings (later ++ h') := by
  induction later with
  | nil => exact he
  | cons c later ih => rw [List.cons_append, after, ih, List.cons_append, after]

/-- Texts do not interfere: what is answered about one is settled by the seed and the calls that
concern it, an eviction is nothing but a `forget`, and texts that are not kept change nothing. -/
theorem texts_separate (settings : Settings) (text : String) (h : List Call) :
    (∀ (settings' : Settings) (h' : List Call), settings'.seed = settings.seed →
      h'.filter (·.concerns text) = h.filter (·.concerns text) →
      Spared settings text h → Spared settings' text h' →
      log settings' text h' = log settings text h) ∧
    (∀ c, Evicts (after settings h) c text →
      (after settings (.forget text :: h)).serve c = (after settings h).serve c ∧
      ∀ later, after settings (later ++ c :: .forget text :: h) =
        after settings (later ++ c :: h)) ∧
    (∀ c, c.text? = some text → ¬ Keepable text →
      ((after settings h).serve c).2.store.entries = (after settings h).store.entries) := by
  refine ⟨?_, ?_, ?_⟩
  · intro settings' h' hseed hcalls hs hs'
    rw [log_spared hs, log_spared hs', hseed, hcalls]
  · intro c he
    have hserve : (after settings (.forget text :: h)).serve c = (after settings h).serve c :=
      (serve_evicts (sound_after settings h) he).symm
    exact ⟨hserve, after_append settings (congrArg Prod.snd hserve)⟩
  · intro c ht hn
    exact entries_of_not_keepable hn ht

/-- A text that shares its session is answered as one that has it for itself. -/
theorem texts_separate_of_two :
    log { capacity := 2, eviction := .lfu } "1|0" [.trigger "1|0", .parse "0|1", .parse "1|0"] =
      log { capacity := 1 } "1|0" [.trigger "1|0", .parse "1|0"] ∧
    Evicts (after { capacity := 1 } [.parse "1|0"]) (.parse "0|1") "1|0" ∧
    after { capacity := 1 } [.parse "0|1", .forget "1|0", .parse "1|0"] =
      after { capacity := 1 } [.parse "0|1", .parse "1|0"] ∧
    (after { capacity := 1 } [.trigger "1", .parse "1|0"]).store.entries =
      (after { capacity := 1 } [.parse "1|0"]).store.entries := by
  have he : Evicts (after { capacity := 1 } [.parse "1|0"]) (.parse "0|1") "1|0" := by
    decide +kernel
  refine ⟨?_, he, ?_, ?_⟩
  · apply (texts_separate { capacity := 1 } "1|0" [.trigger "1|0", .parse "1|0"]).1
    · rfl
    · decide +kernel
    · exact ⟨by decide +kernel, by decide +kernel, trivial⟩
    · exact ⟨by decide +kernel, by decide +kernel, by decide +kernel, trivial⟩
  · exact ((texts_separate { capacity := 1 } "1|0" [.parse "1|0"]).2.1 _ he).2 []
  · exact (texts_separate { capacity := 1 } "1" [.parse "1|0"]).2.2 (.trigger "1") rfl
      (by decide +kernel)

end Rhythm.Session
