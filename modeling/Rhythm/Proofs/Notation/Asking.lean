import Rhythm.Proofs.Notation.Nodes
import Rhythm.Proofs.Notation.Rereading
import Rhythm.Proofs.Notation.Segments
import Rhythm.Proofs.Performance.Round

/-! A scene that was read fails only in its core. It asks at most once, for what stands under its
suffix. -/
namespace Rhythm.Notation

open Rhythm.Notation.Expr

variable {α β : Type} {seed : UInt64} {e e' accent : Expr} {es : List Expr} {b : Bool}
  {text : List Char} {parsed : Parsed} {err : NotationError}

theorem kind_runningDemands {span : Span} {n : Nat}
    (h : ∀ e ∈ es, ∀ d ∈ e.demands, d.kind = .combinedTooLong) :
    ∀ d ∈ runningDemands span n es, d.kind = .combinedTooLong := by
  induction es generalizing n with
  | nil => exact nofun
  | cons e es ih =>
    obtain ⟨hfirst, hrest⟩ := List.forall_mem_cons.1 h
    rw [runningDemands]
    exact List.forall_mem_append.2 ⟨hfirst, List.forall_mem_cons.2 ⟨rfl, ih hrest⟩⟩

/-- All that a chain demands is that what it puts together is not too long. -/
theorem Expr.IsChain.kind_demands (h : e.IsChain) : ∀ d ∈ e.demands, d.kind = .combinedTooLong := by
  induction h with
  | literal | generator | bell => exact nofun
  | combination _ _ hl hr =>
    rw [demands]
    exact List.forall_mem_append.2
      ⟨List.forall_mem_append.2 ⟨hl, hr⟩, List.forall_mem_singleton.2 rfl⟩
  | @chain parts _ _ ih =>
    cases parts with
    | nil => exact nofun
    | cons e es =>
      obtain ⟨hfirst, hrest⟩ := List.forall_mem_cons.1 ih
      rw [demands]
      exact List.forall_mem_append.2 ⟨hfirst, kind_runningDemands hrest⟩
  | invert _ ih | reverse _ ih =>
    rw [demands]
    exact ih

theorem Expr.IsChain.kind_of_error (h : e.IsChain) (he : e.eval seed = .error err) :
    err.kind = .combinedTooLong := by
  have hanswer := e.answers seed
  rw [Answers, allDemands, h.accent?_eq, Option.map_none, Option.getD_none, List.nil_append,
    he] at hanswer
  cases hd : Demand.firstUnmet e.demands with
  | some d =>
    rw [hd] at hanswer
    cases hanswer
    rw [d.kind_error]
    exact h.kind_demands d (List.mem_of_find?_eq_some hd)
  | none =>
    rw [hd] at hanswer
    obtain ⟨_, hok, -⟩ := hanswer
    cases hok

/-- A term puts nothing together. -/
theorem Phrase.Term.demands_eq {naming : Naming} {ts rest : List Lexeme}
    (h : Phrase.Term naming ts rest e) : e.demands = [] := by
  induction h with
  | primary h =>
    cases h with
    | call _ _ h => cases h <;> rfl
    | _ => rfl
  | tilde _ _ ih | invert _ _ _ _ ih | reverse _ _ _ _ ih =>
    rw [demands]
    exact ih

/-- Where nothing is demanded nothing fails. -/
theorem not_error_of_demands_nil (h : e.IsChain) (hd : e.demands = []) :
    e.eval seed ≠ .error err := by
  intro herr
  obtain ⟨d, hd', -⟩ := (e.fails_iff seed).1 ⟨err, herr⟩
  rw [allDemands, h.accent?_eq, Option.map_none, Option.getD_none, List.nil_append, hd] at hd'
  cases hd'

/-- What takes turns in a text was read, or stands in for what could not be. -/
theorem mem_parts_of_parse (hp : parse text = .ok parsed)
    (he : e ∈ Performance.parts parsed.expr) :
    e = restScene ∨ ∃ place t, parseSegment place t = .ok e := by
  unfold parse at hp
  split at hp
  · next place t _ =>
    cases hread : parseSegment place t with
    | error err =>
      rw [hread] at hp
      cases hp
    | ok e' =>
      rw [hread] at hp
      cases hp
      rw [parts_of_isScene (parseSegment_isScene hread), List.mem_singleton] at he
      exact .inr ⟨place, t, he ▸ hread⟩
  · have hne : readings text ≠ [] := by
      rw [← List.length_pos_iff, length_readings]
      exact List.length_pos_iff.2 (segments_ne_nil text)
    rw [ofScenes_eq_ok hp] at he
    change e ∈ Performance.parts (.scenes ((readings text).map _)) at he
    rw [parts_scenes (mt List.map_eq_nil_iff.1 hne)] at he
    obtain ⟨r, hr, rfl⟩ := List.mem_map.1 he
    obtain ⟨s, -, rfl⟩ := List.mem_map.1 hr
    cases hread : parseSegment s.1 s.2 with
    | error err => exact .inl rfl
    | ok e => exact .inr ⟨s.1, s.2, hread⟩

/-- An accent that was read always comes to a pattern. -/
theorem demands_of_accent (hp : parse text = .ok parsed)
    (he : e ∈ Performance.parts parsed.expr) (ha : e.accent? = some accent) :
    accent.demands = [] := by
  obtain rfl | ⟨place, t, hread⟩ := mem_parts_of_parse hp he
  · cases ha
  · obtain ⟨tokens, -, hsegment⟩ := parseSegment_eq_ok_iff.1 hread
    cases hsegment with
    | bare h =>
      cases h with
      | chain h _ =>
        rw [h.isChain.accent?_eq] at ha
        cases ha
      | _ => cases ha
    | accented _ h _ _ =>
      cases ha
      exact h.demands_eq

/-- What a course has to do with the suffix of an expression. Where the core fails, nothing is
asked; else just the suffix asks, for the pattern that stands under it. -/
inductive Asks (seed : UInt64) (e : Expr) : Course α → Prop
  | fails {err : NotationError} (h : e.core.eval seed = .error err) :
    Asks seed e (.settled (.error err))
  | settles {v : Evaluation} {a : α} (h : e.core.eval seed = .ok v) (hs : e.suffixed? = none) :
    Asks seed e (.settled (.ok a))
  | asks {v w : Evaluation} {suffix : Suffix} {body : Expr} {finish : Pattern → α}
    (h : e.core.eval seed = .ok v) (hs : e.suffixed? = some (suffix, body))
    (hw : body.eval seed = .ok w) :
    Asks seed e (.asking (progressionFor suffix body) w.pattern finish)

theorem Asks.map {c : Course α} (h : Asks seed e c) (f : α → β) (hcore : e'.core = e.core)
    (hsuffix : e'.suffixed? = e.suffixed?) : Asks seed e' (c.map f) := by
  cases h with
  | fails h => exact .fails (hcore ▸ h)
  | settles h hs => exact .settles (hcore ▸ h) (hsuffix.trans hs)
  | asks h hs hw => exact .asks (hcore ▸ h) (hsuffix.trans hs) hw

theorem asks_of_isBody (seed : UInt64) (h : e.IsBody b) : ∃ c, e.Takes seed c ∧ Asks seed e c := by
  induction h with
  | @chain e h =>
    obtain ⟨r, hr⟩ := takes_of_isChain seed h
    have heval := eval_of_settled (.chain h) hr
    refine ⟨_, hr, ?_⟩
    rw [← core_of_isChain h] at heval
    cases r with
    | error err => exact .fails heval
    | ok a => exact .settles heval h.suffixed?_eq
  | quantized hp hl _ ih =>
    obtain ⟨c, hc, hasks⟩ := ih
    obtain ⟨f, hf⟩ := takes_quantized hc hp hl _ _
    exact ⟨_, hf, hasks.map f rfl rfl⟩
  | rotate _ ih =>
    obtain ⟨c, hc, hasks⟩ := ih
    exact ⟨_, takes_rotate hc _, hasks.map _ rfl rfl⟩
  | progressive h ih =>
    obtain ⟨c, hc, hasks⟩ := ih
    cases hasks with
    | fails hcore => exact ⟨_, takes_progressive_error _ hc, .fails hcore⟩
    | settles hcore =>
      have hbody := eval_of_settled h hc
      exact ⟨_, takes_progressive _ hc, .asks (e := .progressive ..) hcore rfl hbody⟩
    | asks _ hs _ =>
      rw [h.suffixed?_eq] at hs
      cases hs

/-- An accent comes first. If it fails, nothing else is evaluated. -/
theorem asks_or_accent_fails (seed : UInt64) (h : e.IsScene) : ∃ c : Course Evaluation,
    (∀ (σ : Type) (resolve : Resolver σ) (m : σ),
      e.evalWith seed resolve m = c.run resolve m) ∧
    (Asks seed e c ∨ ∃ a err, e.accent? = some a ∧ a.IsChain ∧ a.eval seed = .error err ∧
      c = .settled (.error err)) := by
  cases h with
  | bare h =>
    obtain ⟨c, hc, hasks⟩ := asks_of_isBody seed h
    exact ⟨_, fun σ => evalWith_of_takes h hc, .inl (hasks.map _ rfl rfl)⟩
  | @accented _ a body ha h =>
    obtain ⟨c, hc, hasks⟩ := asks_of_isBody seed h
    obtain ⟨r, hr⟩ := plain_of_isChain seed ha
    cases r with
    | error err =>
      have herr : a.eval seed = .error err := by
        rw [Expr.eval, Expr.evalWith, layers_of_isBody (.chain ha),
          run_bind_error (hr Unit atStart _)]
      refine ⟨.settled (.error err), ?_, .inr ⟨a, err, rfl, ha, herr, rfl⟩⟩
      intro σ resolve m
      rw [Expr.evalWith, Expr.layers, run_bind_error (hr σ resolve _)]
      rfl
    | ok p => exact ⟨_, fun σ => evalWith_accented hr hc, .inl (hasks.map _ rfl rfl)⟩

theorem asks_of_isScene (seed : UInt64) (h : e.IsScene)
    (ha : ∀ a, e.accent? = some a → a.demands = []) :
    ∃ c : Course Evaluation, Asks seed e c ∧
      ∀ (σ : Type) (resolve : Resolver σ) (m : σ),
        e.evalWith seed resolve m = c.run resolve m := by
  obtain ⟨c, hc, hasks | ⟨a, err, haccent, hchain, herr, -⟩⟩ := asks_or_accent_fails seed h
  · exact ⟨c, hasks, hc⟩
  · exact absurd herr (not_error_of_demands_nil hchain (ha a haccent))

/-- Where the core of a body without a suffix fails, the body does. -/
theorem eval_of_core_error (h : e.IsBody false) (herr : e.core.eval seed = .error err) :
    e.eval seed = .error err := by
  obtain ⟨c, hc, hasks⟩ := asks_of_isBody seed h
  cases hasks with
  | fails hcore =>
    rw [herr] at hcore
    cases hcore
    exact eval_of_settled h hc
  | settles hcore =>
    rw [herr] at hcore
    cases hcore
  | asks hcore =>
    rw [herr] at hcore
    cases hcore

/-- How a scene is evaluated, whoever is asked. It fails only for something too long in its core,
before anything is asked, and so below the node that evolves. This node is the only one to ask: for
its own progression, from the pattern that stands under it. -/
structure Expr.AsksOnce (seed : UInt64) (e : Expr) : Prop where
  fails : ∀ (σ : Type) (resolve : Resolver σ) (m m' : σ) (err : NotationError),
    e.evalWith seed resolve m = (.error err, m') →
      err.kind = .combinedTooLong ∧ m' = m ∧ e.core.eval seed = .error err ∧
        ∀ suffix body, progressive suffix body ∈ e.nodes →
          e.core ∈ body.nodes ∧ body.eval seed = .error err
  asks : ∀ suffix body v, progressive suffix body ∈ e.nodes → body.eval seed = .ok v →
    ∃ finish : Pattern → Evaluation, ∀ (σ : Type) (resolve : Resolver σ) (m : σ),
      e.evalWith seed resolve m =
        (Course.asking (progressionFor suffix body) v.pattern finish).run resolve m
  quiet : (∀ x ∈ e.nodes, x.evolves = false) →
    ∃ r, ∀ (σ : Type) (resolve : Resolver σ) (m : σ), e.evalWith seed resolve m = (r, m)

theorem asksOnce_of_isScene (seed : UInt64) (h : e.IsScene)
    (ha : ∀ a, e.accent? = some a → a.demands = []) : e.AsksOnce seed := by
  obtain ⟨c, hasks, hc⟩ := asks_of_isScene seed h ha
  constructor
  · intro σ resolve m m' err herr
    rw [hc] at herr
    cases hasks with
    | fails hcore =>
      cases herr
      refine ⟨h.core_isChain.kind_of_error hcore, rfl, hcore, ?_⟩
      intro suffix body hmem
      obtain ⟨hbody, hsame⟩ := h.of_suffixed? (h.progressive_mem_iff.1 hmem)
      rw [← hsame] at hcore ⊢
      exact ⟨hbody.core_mem_nodes, eval_of_core_error hbody hcore⟩
    | settles => cases herr
    | asks => cases herr
  · intro suffix body v hmem hv
    have hs := h.progressive_mem_iff.1 hmem
    obtain ⟨hbody, hsame⟩ := h.of_suffixed? hs
    cases hasks with
    | fails hcore =>
      rw [← hsame] at hcore
      rw [eval_of_core_error hbody hcore] at hv
      cases hv
    | settles _ hnone =>
      rw [hs] at hnone
      cases hnone
    | asks _ hs' hw =>
      rw [hs] at hs'
      cases hs'
      rw [hv] at hw
      cases hw
      exact ⟨_, hc⟩
  · intro hnone
    cases hasks with
    | fails => exact ⟨_, hc⟩
    | settles => exact ⟨_, hc⟩
    | asks _ hs _ => cases hnone _ (h.progressive_mem_iff.2 hs)

/-- What takes turns in a text is evaluated so. -/
theorem asksOnce_of_parse (seed : UInt64) (hp : parse text = .ok parsed)
    (he : e ∈ Performance.parts parsed.expr) : e.AsksOnce seed :=
  asksOnce_of_isScene seed (parts_isScene (parse_shaped hp) e he)
    fun _ ha => demands_of_accent hp he ha

end Rhythm.Notation
