import Rhythm.Proofs.Notation.Chains

/-! The texts that are read are just those the grammar derives, and with the same result. -/
namespace Rhythm.Notation

open Text Phrase Cursor

variable {c d : Cursor} {ts us ls rest : List Lexeme} {l : Lexeme} {e left : Expr}
  {naming : Naming} {name : List Char} {place : Span} {t : Rhythm.Notation.Tail} {b : Bool}

theorem transform_sound {family : Option Family} {t? : Option Rhythm.Notation.Tail}
    (h : transform family c = .ok (t?, d)) : ∃ target ts,
      c.Passes ts d ∧ Count ts target ∧ t? = some (.evolve (.transform target family)) := by
  simp only [transform, bind_eq_ok, pure, Except.pure, Except.ok.injEq, Prod.mk.injEq] at h
  obtain ⟨⟨⟨target, s⟩, f⟩, hn, rfl, rfl⟩ := h
  obtain ⟨ts, hp, hn⟩ := count_sound hn
  exact ⟨target, ts, hp, hn, rfl⟩

theorem transform_complete {family : Option Family} {target : Nat} (hp : c.Passes ts d)
    (hn : Count ts target) :
    transform family c = .ok (some (.evolve (.transform target family)), d) := by
  obtain ⟨s, hcount⟩ := count_complete hp hn
  rw [transform, hcount]
  rfl

theorem quantize_sound (ha : c.ahead = l :: ls) (hl : l.token = .mark .semicolon) {s : Span}
    {steps : Nat} (h : count (if !c.next.at? .minus then c.next else c.next.next) =
      .ok ((steps, s), d)) (hpos : 0 < steps) (hle : steps ≤ maxSteps) :
    ∃ ts, c.Passes ts d ∧ Phrase.Tail ts (.quantize steps (!c.next.at? .minus)) := by
  obtain ⟨ts, hp, hn⟩ := count_sound h
  cases hm : c.next.at? .minus with
  | false =>
    rw [hm] at hp
    exact ⟨_, .cons ha hp, .clockwise hl hn hpos hle⟩
  | true =>
    obtain ⟨s, ls', hs, hsign⟩ := exists_of_at? hm
    rw [hm] at hp
    exact ⟨_, .cons ha (.cons hs hp), .counterclockwise hl hsign hn hpos hle⟩

theorem tail?_sound (h : tail? c = .ok (some t, d)) :
    ∃ ts, c.Passes ts d ∧ Phrase.Tail ts t := by
  unfold tail? at h
  split at h
  · next ht =>
    obtain ⟨l, ls, ha, hl⟩ := exists_of_token? ht
    simp only [bind_eq_ok] at h
    obtain ⟨⟨⟨steps, s⟩, f⟩, hn, h⟩ := h
    dsimp only at h
    split at h
    · cases h
    · cases h
      exact quantize_sound ha hl hn (by omega) (by omega)
  · next ht =>
    obtain ⟨l, ls, ha, hl⟩ := exists_of_token? ht
    simp only [bind_eq_ok, pure, Except.pure, Except.ok.injEq, Prod.mk.injEq] at h
    obtain ⟨⟨⟨n, s⟩, f⟩, hn, ht, rfl⟩ := h
    obtain ⟨ts, hp, hn⟩ := integer_sound hn
    cases ht
    exact ⟨_, .cons ha hp, .rotate hl hn⟩
  · next ht =>
    obtain ⟨l, ls, ha, hl⟩ := exists_of_token? ht
    obtain ⟨target, ts, hp, hn, ht⟩ := transform_sound h
    cases ht
    exact ⟨_, .cons ha hp, .transform hl hn⟩
  · next name ht =>
    obtain ⟨l, ls, ha, hl⟩ := exists_of_token? ht
    split at h
    · cases h
    · next hg =>
      have hat : c.next.at? .greater = true := by
        rw [at?_iff, next_eq ha]
        exact (isTransformer_iff ha).1 (by simpa using hg)
      obtain ⟨g, ls', hnext, hg⟩ := exists_of_at? hat
      split at h
      · next family hf =>
        split at h
        · next htransformer =>
          obtain ⟨target, ts, hp, hn, ht⟩ := transform_sound h
          cases ht
          exact ⟨_, .cons ha (.cons hnext hp), .transformBy hl hf htransformer hg hn⟩
        · cases h
      · cases h
  · next ht =>
    obtain ⟨l, ls, ha, hl⟩ := exists_of_token? ht
    simp only [bind_eq_ok, pure, Except.pure, Except.ok.injEq, Prod.mk.injEq] at h
    obtain ⟨⟨⟨n, s⟩, f⟩, hn, ht, rfl⟩ := h
    obtain ⟨ts, hp, hn⟩ := count_sound hn
    cases ht
    exact ⟨_, .cons ha hp, .lengthen hl hn⟩
  · next ht =>
    obtain ⟨l, ls, ha, hl⟩ := exists_of_token? ht
    simp only [bind_eq_ok, pure, Except.pure, Except.ok.injEq, Prod.mk.injEq] at h
    obtain ⟨⟨⟨n, s⟩, f⟩, hn, ht, rfl⟩ := h
    obtain ⟨ts, hp, hn⟩ := integer_sound hn
    cases ht
    exact ⟨_, .cons ha hp, .offset (.inl hl) hn⟩
  · next ht =>
    obtain ⟨l, ls, ha, hl⟩ := exists_of_token? ht
    simp only [bind_eq_ok, pure, Except.pure, Except.ok.injEq, Prod.mk.injEq] at h
    obtain ⟨⟨⟨n, s⟩, f⟩, hn, ht, rfl⟩ := h
    obtain ⟨ts, hp, hn⟩ := integer_sound hn
    cases ht
    exact ⟨_, .cons ha hp, .offset (.inr hl) hn⟩
  · cases h

/-- A count above nought has no minus. -/
theorem positive_count {n : Nat} (hn : Count ts n) (hpos : 0 < n) :
    ∃ l ds, ts = [l] ∧ l.token = .digits ds := by
  cases hn with
  | plain ht _ => exact ⟨_, _, rfl, ht⟩
  | nought => exact absurd hpos (Nat.lt_irrefl 0)

theorem tail?_complete (h : Phrase.Tail ts t) (hp : c.Passes ts d) :
    tail? c = .ok (some t, d) := by
  cases h with
  | clockwise hl hn hpos hle =>
    obtain ⟨s, hcount⟩ := count_complete hp.tail hn
    obtain ⟨k, ds, rfl, hk⟩ := positive_count hn hpos
    have hm : c.next.at? .minus = false := at?_ne hp.tail.head (by rw [hk]; simp)
    simp only [tail?, hp.token?, hl, hm, Bool.not_false, if_true, hcount, bind, Except.bind]
    rw [if_neg (by omega)]
    rfl
  | counterclockwise hl hs hn hpos hle =>
    obtain ⟨s, hcount⟩ := count_complete hp.tail.tail hn
    have hm : c.next.at? .minus = true := hp.tail.at? hs
    simp only [tail?, hp.token?, hl, hm, Bool.not_true, Bool.false_eq_true, if_false, hcount,
      bind, Except.bind]
    rw [if_neg (by omega)]
    rfl
  | rotate hl hn =>
    obtain ⟨s, hinteger⟩ := integer_complete hp.tail hn
    simp only [tail?, hp.token?, hl, hinteger, bind, Except.bind]
    rfl
  | transform hl hn =>
    simp only [tail?, hp.token?, hl, transform_complete hp.tail hn]
  | transformBy hw hf ht hl hn =>
    have hg : c.isTransformer 0 = true := (isTransformer_iff hp.head).2 (starts_cons_iff.2 hl)
    simp only [tail?, hp.token?, hw, hg, hf, ht, transform_complete hp.tail.tail hn]
    rfl
  | lengthen hl hn =>
    obtain ⟨s, hcount⟩ := count_complete hp.tail hn
    simp only [tail?, hp.token?, hl, hcount, bind, Except.bind]
    rfl
  | offset hl hn =>
    obtain ⟨s, hinteger⟩ := integer_complete hp.tail hn
    rcases hl with hl | hl
    · simp only [tail?, hp.token?, hl, hinteger, bind, Except.bind]
      rfl
    · simp only [tail?, hp.token?, hl, hinteger, bind, Except.bind]
      rfl

theorem chain_ne_nil (h : Chain naming ts rest e) : ts ≠ [] := by
  cases h with
  | one h => exact combo_ne_nil h
  | several h _ => exact combos_ne_nil h

theorem body_ne_nil (h : Body naming ts rest b e) : ts ≠ [] := by
  induction h with
  | chain h _ => exact chain_ne_nil h
  | quantized _ _ ih => simp [ih]
  | rotate _ _ ih => simp [ih]
  | progressive _ _ ih => simp [ih]

/-- The body read so far and the tails after it make one body. -/
theorem tails_sound {c₀ : Cursor} (first? : Option Span) (hp : c₀.Passes ts c)
    (hb : Body .anywhere ts c.ahead first?.isSome left)
    (h : tails c₀.span first? left c = .ok (e, d)) :
    ∃ us b, c₀.Passes us d ∧ Body .anywhere us d.ahead b e := by
  fun_induction tails c₀.span first? left c generalizing e d ts with
  | case1 => cases h
  | case2 =>
    cases h
    exact ⟨ts, _, hp, hb⟩
  | case3 _ _ c steps clockwise f ht ih =>
    obtain ⟨us, hp', ht⟩ := tail?_sound ht
    rw [hp'.ahead] at hb
    have hb' := Body.quantized hb ht
    rw [← (hp.trans hp').since_of_ne_nil (body_ne_nil hb')] at hb'
    exact ih (hp.trans hp') hb' h
  | case4 _ _ c offset f ht ih =>
    obtain ⟨us, hp', ht⟩ := tail?_sound ht
    rw [hp'.ahead] at hb
    exact ih (hp.trans hp') (.rotate hb ht) h
  | case5 => cases h
  | case6 _ c suffix f ht ih =>
    obtain ⟨us, hp', ht⟩ := tail?_sound ht
    rw [hp'.ahead] at hb
    exact ih (hp.trans hp') (.progressive hb ht) h

theorem body_sound (h : body c = .ok (e, d)) :
    ∃ ts b, c.Passes ts d ∧ Body .anywhere ts d.ahead b e := by
  simp only [body, bind_eq_ok] at h
  obtain ⟨⟨e', f⟩, hc, h⟩ := h
  obtain ⟨ts, hp, hc, hm, -⟩ := chain_sound hc
  have hb := Body.chain hc (mergeSign?_eq_none_iff.1 hm).2
  exact tails_sound none hp hb h

/-- Nothing ahead goes on a chain, unless it is a plus. -/
structure Trails (ls : List Lexeme) : Prop where
  calm : Calm ls
  opens : ¬ Opens ls
  minus : ¬ Starts .minus ls

theorem trails_nil : Trails [] := ⟨calm_nil, nofun, not_starts_nil⟩

theorem trails_of_mark {m : Mark} (hl : l.token = .mark m)
    (hm : m ∈ [Mark.semicolon, .at, .greater, .star, .plus, .percent, .rightBrace]) :
    Trails (l :: ls) := by
  have hne : ∀ k ∉ [Mark.semicolon, .at, .greater, .star, .plus, .percent, .rightBrace], m ≠ k :=
    fun k hk hmk => hk (hmk ▸ hm)
  refine ⟨calm_of_mark hl (hne _ (by decide)) (hne _ (by decide)),
    not_opens_of_mark hl (hne _ (by decide)) (hne _ (by decide)), ?_⟩
  rw [starts_cons_iff, hl]
  simpa using hne _ (by decide)

theorem trails_of_tail (h : Phrase.Tail us t) (rest : List Lexeme) : Trails (us ++ rest) := by
  cases h with
  | clockwise hl => exact trails_of_mark hl (by decide)
  | counterclockwise hl => exact trails_of_mark hl (by decide)
  | rotate hl => exact trails_of_mark hl (by decide)
  | transform hl => exact trails_of_mark hl (by decide)
  | @transformBy w l ts _ _ _ hw _ _ hl _ =>
    have hword : ∀ m, ¬ Starts m (w :: l :: ts ++ rest) := by
      intro m
      rw [List.cons_append, starts_cons_iff, hw]
      exact nofun
    refine ⟨⟨hword _, hword _⟩, ?_, hword _⟩
    intro ho
    cases ho <;> simp_all [starts_cons_iff]
  | lengthen hl => exact trails_of_mark hl (by decide)
  | offset hl =>
    rcases hl with hl | hl
    · exact trails_of_mark hl (by decide)
    · exact trails_of_mark hl (by decide)

theorem tails_none (h : tail? c = .ok (none, d)) {first? : Option Span} :
    tails place first? e c = .ok (e, c) := by
  rw [tails_eq, h]

theorem tails_error {x : NotationError} {first? : Option Span} (h : tail? c = .error x) :
    tails place first? e c = .error x := by
  rw [tails_eq, h]

theorem tails_quantize {steps : Nat} {clockwise : Bool} {first? : Option Span}
    (h : tail? c = .ok (some (.quantize steps clockwise), d)) :
    tails place first? e c =
      tails place first? (.quantized e steps clockwise (d.since place)) d := by
  rw [tails_eq, h]

theorem tails_rotate {offset : Int} {first? : Option Span}
    (h : tail? c = .ok (some (.rotate offset), d)) :
    tails place first? e c = tails place first? (.rotate e offset) d := by
  rw [tails_eq, h]

theorem tails_evolve {suffix : Suffix} (h : tail? c = .ok (some (.evolve suffix), d)) :
    tails place none e c = tails place (some c.span) (.progressive suffix e) d := by
  rw [tails_eq, h]

theorem tails_second {suffix : Suffix} {first : Span}
    (h : tail? c = .ok (some (.evolve suffix), d)) :
    tails place (some first) e c = .error ⟨.secondProgressive first, c.span⟩ := by
  rw [tails_eq]
  simp only [h, fail]

/-- Where the grammar has a body, the reading comes to its end with the body in hand. -/
theorem body_eq_tails (h : Body naming ts rest b e) (hp : c.Passes ts d) (hr : d.ahead = rest)
    (ht : Trails rest) : ∃ first?, first?.isSome = b ∧ body c = tails c.span first? e d := by
  induction h generalizing d with
  | chain h hplus =>
    subst hr
    have hrests : Rests d := ⟨ht.calm, mergeSign?_eq_none_iff.2 ⟨ht.minus, hplus⟩, ht.opens⟩
    refine ⟨none, rfl, ?_⟩
    rw [body, chain_complete h hp rfl hrests]
    rfl
  | quantized h htail ih =>
    obtain ⟨f, hp', hq, hf⟩ := hp.split
    obtain ⟨first?, hfirst, hbody⟩ := ih hp' (hr ▸ hf) (trails_of_tail htail _)
    refine ⟨first?, hfirst, ?_⟩
    rw [hbody, tails_quantize (tail?_complete htail hq),
      hp.since_of_ne_nil (body_ne_nil (.quantized h htail))]
  | rotate h htail ih =>
    obtain ⟨f, hp', hq, hf⟩ := hp.split
    obtain ⟨first?, hfirst, hbody⟩ := ih hp' (hr ▸ hf) (trails_of_tail htail _)
    exact ⟨first?, hfirst, hbody.trans (tails_rotate (tail?_complete htail hq))⟩
  | progressive h htail ih =>
    obtain ⟨f, hp', hq, hf⟩ := hp.split
    obtain ⟨first?, hfirst, hbody⟩ := ih hp' (hr ▸ hf) (trails_of_tail htail _)
    obtain rfl : first? = none := by simpa using hfirst
    exact ⟨some f.span, rfl, hbody.trans (tails_evolve (tail?_complete htail hq))⟩

theorem body_complete (h : Body naming ts [] b e) (hp : c.Passes ts d) (hr : d.ahead = []) :
    body c = .ok (e, d) := by
  obtain ⟨first?, -, hbody⟩ := body_eq_tails h hp hr trails_nil
  have hnone : tail? d = .ok (none, d) := by rw [tail?, token?_nil hr]
  rw [hbody, tails_none hnone]

theorem accent_sound (hc : c.at? .leftBrace = true) (h : accent c = .ok (e, d)) :
    ∃ l ts r, c.Passes (l :: (ts ++ [r])) d ∧ l.token = .mark .leftBrace ∧
      Term .anywhere ts (r :: d.ahead) e ∧ r.token = .mark .rightBrace := by
  obtain ⟨l, ls, ha, hl⟩ := exists_of_at? hc
  unfold accent at h
  dsimp only at h
  split at h
  · cases h
  · split at h
    · cases h
    · simp only [bind_eq_ok, pure, Except.pure, Except.ok.injEq, Prod.mk.injEq] at h
      obtain ⟨⟨e', f⟩, ht, d', hclose, rfl, rfl⟩ := h
      obtain ⟨ts, hp, ht⟩ := term_sound ht
      obtain ⟨r, hp', hr⟩ := close_sound hclose
      rw [hp'.ahead] at ht
      exact ⟨l, ts, r, .cons ha (hp.trans hp'), hl, ht, hr⟩

theorem primary_head (h : Primary naming ts rest e) {m : Mark} (hm : m ≠ .leftBracket)
    (us : List Lexeme) : ¬ Starts m (ts ++ us) := by
  cases h <;> simp_all [starts_cons_iff, Ne.symm hm]

theorem term_head (h : Term naming ts rest e) {m : Mark} (hb : m ≠ .leftBracket)
    (ht : m ≠ .tilde) (us : List Lexeme) : ¬ Starts m (ts ++ us) := by
  cases h with
  | primary h => exact primary_head h hb us
  | tilde hl => simpa [starts_cons_iff, hl] using Ne.symm ht
  | invert hl => simp [starts_cons_iff, hl]
  | reverse hl => simp [starts_cons_iff, hl]

theorem accent_complete {r : Lexeme} (hp : c.Passes (l :: (ts ++ [r])) d)
    (ht : Term naming ts (r :: d.ahead) e) (hr : r.token = .mark .rightBrace) :
    accent c = .ok (e, d) := by
  obtain ⟨f, hp', hq, hf⟩ := hp.tail.split
  have hterm := term_complete ht hp' hf (calm_of_mark hr (by decide) (by decide))
  have hright : c.next.at? .rightBrace = false := by
    rw [at?_eq_false_iff, hp'.ahead]
    exact term_head ht (by decide) (by decide) _
  have hempty : c.next.ahead.isEmpty = false := by
    rw [hp'.ahead]
    simp [term_ne_nil ht]
  simp only [accent, hright, hempty, Bool.false_eq_true, if_false, hterm, bind, Except.bind,
    close_complete hq hr]
  rfl

theorem combo_head (h : Combo naming ts rest e) {m : Mark} (hb : m ≠ .leftBracket)
    (ht : m ≠ .tilde) (us : List Lexeme) : ¬ Starts m (ts ++ us) := by
  induction h generalizing us with
  | term h => exact term_head h hb ht us
  | merge _ _ _ ih =>
    rw [List.append_assoc]
    exact ih _

theorem body_head (h : Body naming ts rest b e) {m : Mark} (hb : m ≠ .leftBracket)
    (ht : m ≠ .tilde) (us : List Lexeme) : ¬ Starts m (ts ++ us) := by
  induction h generalizing us with
  | chain h _ =>
    cases h with
    | one h => exact combo_head h hb ht us
    | several h _ =>
      cases h with
      | one h => exact combo_head h hb ht us
      | more h _ _ =>
        rw [List.append_assoc]
        exact combo_head h hb ht _
  | quantized _ _ ih | rotate _ _ ih | progressive _ _ ih =>
    rw [List.append_assoc]
    exact ih _

/-- What a body comes to if it is to be the last of a text. -/
def ending (f : Expr → Expr) (r : Fallible (Expr × Cursor)) : Fallible Expr :=
  r >>= fun r => if r.2.ahead.isEmpty then pure (f r.1)
    else .error ⟨.expected .endOfPattern r.2.token?, r.2.span⟩

theorem ending_eq_ok_iff {f : Expr → Expr} {r : Fallible (Expr × Cursor)} :
    ending f r = .ok left ↔ ∃ e d, r = .ok (e, d) ∧ d.ahead = [] ∧ left = f e := by
  rw [ending, bind_eq_ok]
  constructor
  · rintro ⟨⟨e, d⟩, hb, h⟩
    dsimp only at h
    split at h
    · next hend =>
      cases h
      exact ⟨e, d, hb, by simpa using hend, rfl⟩
    · cases h
  · rintro ⟨e, d, hb, hend, rfl⟩
    exact ⟨_, hb, by simp [hend, pure, Except.pure]⟩

/-- A segment is a body up to the end, with an accent before it or without. -/
theorem segment_eq_ok_iff : segment c = .ok left ↔ c.ahead ≠ [] ∧
    (c.at? .leftBrace = false ∧ (∃ d, body c = .ok (left, d) ∧ d.ahead = []) ∨
      c.at? .leftBrace = true ∧ ∃ a f e d,
        accent c = .ok (a, f) ∧ body f = .ok (e, d) ∧ d.ahead = [] ∧ left = .accented a e) := by
  unfold segment
  cases hempty : c.ahead with
  | nil => exact ⟨nofun, fun h => absurd rfl h.1⟩
  | cons l ls =>
    rw [List.isEmpty_cons, if_neg Bool.false_ne_true]
    cases hbrace : c.at? .leftBrace with
    | false =>
      refine (ending_eq_ok_iff (f := id)).trans ⟨?_, ?_⟩
      · rintro ⟨e, d, hb, hd, rfl⟩
        exact ⟨List.cons_ne_nil _ _, .inl ⟨rfl, d, hb, hd⟩⟩
      · rintro ⟨-, ⟨-, d, hb, hd⟩ | ⟨hn, -⟩⟩
        · exact ⟨left, d, hb, hd, rfl⟩
        · cases hn
    | true =>
      cases haccent : accent c with
      | error x =>
        refine iff_of_false nofun ?_
        simp
      | ok r =>
        refine (ending_eq_ok_iff (f := .accented r.1)).trans ⟨?_, ?_⟩
        · rintro ⟨e, d, hb, hd, rfl⟩
          exact ⟨List.cons_ne_nil _ _, .inr ⟨rfl, r.1, r.2, e, d, rfl, hb, hd, rfl⟩⟩
        · rintro ⟨-, ⟨hn, -⟩ | ⟨-, a, f, e, d, ha, hb, hd, rfl⟩⟩
          · cases hn
          · cases ha
            exact ⟨e, d, hb, hd, rfl⟩

theorem segment_sound (h : segment c = .ok e) : Segment .anywhere c.ahead e := by
  obtain ⟨-, ⟨-, d, hb, hd⟩ | ⟨hbrace, a, f, e', d, ha, hb, hd, rfl⟩⟩ := segment_eq_ok_iff.1 h
  · obtain ⟨ts, b, hp, hb⟩ := body_sound hb
    rw [hp.ahead]
    rw [hd] at hb ⊢
    rw [List.append_nil]
    exact .bare hb
  · obtain ⟨l, ts, r, hp, hl, ht, hr⟩ := accent_sound hbrace ha
    obtain ⟨us, b, hp', hb⟩ := body_sound hb
    rw [hd] at hb
    rw [hp'.ahead, hd, List.append_nil] at ht
    have hall := (hp.trans hp').ahead
    rw [hd] at hall
    have hlist : c.ahead = l :: (ts ++ r :: us) := by simpa using hall
    rw [hlist]
    exact .accented hl ht hr hb

theorem segment_complete (h : Segment naming c.ahead e) : segment c = .ok e := by
  rw [segment_eq_ok_iff]
  generalize hts : c.ahead = ts at h
  cases h with
  | bare hb =>
    have hp : c.Passes ts ⟨lastSpan c.behind ts, [], c.finish⟩ :=
      ⟨by rw [hts, List.append_nil], rfl, rfl⟩
    refine ⟨body_ne_nil hb, .inl ⟨?_, _, body_complete hb hp rfl, rfl⟩⟩
    rw [at?_eq_false_iff, hts, ← List.append_nil ts]
    exact body_head hb (by decide) (by decide) []
  | @accented l r ts us b a e hl ha hr hb =>
    have hp : c.Passes (l :: (ts ++ [r]) ++ us)
        ⟨lastSpan c.behind (l :: (ts ++ [r]) ++ us), [], c.finish⟩ :=
      ⟨by simp [hts], rfl, rfl⟩
    obtain ⟨f, hp', hq, hf⟩ := hp.split
    rw [List.append_nil] at hf
    have haccent := accent_complete hp' (hf ▸ ha) hr
    have hbody := body_complete hb hq rfl
    exact ⟨List.cons_ne_nil _ _,
      .inr ⟨at?_of_ahead hts hl, a, f, e, _, haccent, hbody, rfl, rfl⟩⟩

/-- All tokens of a text go into what is read. -/
theorem parseSegment_eq_ok_iff {n : Nat} {text : List Char} : parseSegment n text = .ok e ↔
    ∃ tokens, tokenize n text = .ok tokens ∧ Segment .anywhere tokens e := by
  rw [parseSegment, bind_eq_ok]
  refine exists_congr fun tokens => and_congr_right fun _ => ⟨segment_sound, fun h => ?_⟩
  exact segment_complete (c := .start n text tokens) h

/-- A text is read as an expression if and only if it can be cut into tokens and the grammar derives
the expression from them. -/
theorem parseExpr_eq_ok_iff (text : List Char) (e : Expr) : parseExpr text = .ok e ↔
    ∃ tokens, tokenize 0 text = .ok tokens ∧ Segment .anywhere tokens e :=
  parseSegment_eq_ok_iff

/-- The first of the tokens is a word and a transformation comes right after it. -/
def Transforms (ls : List Lexeme) : Prop :=
  ∃ w ls' name, ls = w :: ls' ∧ w.token = .word name ∧ Starts .greater ls'

theorem primary_clear (h : Primary .clear ts rest e) : ¬ Transforms (ts ++ rest) := by
  rintro ⟨w, ls, name, hls, hw, hg⟩
  cases h with
  | binary hl | decimal hl | code hl | morse hl | onsets hl =>
    cases hls
    rw [hl] at hw
    cases hw
  | call _ _ h =>
    cases hls
    cases h <;> simp_all [starts_cons_iff]
  | preset _ _ ha =>
    cases hls
    exact ha hg

theorem term_clear (h : Term .clear ts rest e) : ¬ Transforms (ts ++ rest) := by
  rintro ⟨w, ls, name, hls, hw, hg⟩
  cases h with
  | primary h => exact primary_clear h ⟨w, ls, name, hls, hw, hg⟩
  | tilde hl =>
    cases hls
    rw [hl] at hw
    cases hw
  | invert _ _ ho | reverse _ _ ho =>
    cases hls
    exact opens_not_starts ho (by decide) (by decide) hg

theorem combo_clear (h : Combo .clear ts rest e) : ¬ Transforms (ts ++ rest) := by
  induction h with
  | term h => exact term_clear h
  | merge _ _ _ ih => simpa using ih

theorem body_clear (h : Body .clear ts rest b e) : ¬ Transforms (ts ++ rest) := by
  induction h with
  | chain h _ =>
    cases h with
    | one h => exact combo_clear h
    | several h _ =>
      cases h with
      | one h => exact combo_clear h
      | more h _ _ => simpa using combo_clear h
  | quantized _ _ ih | rotate _ _ ih | progressive _ _ ih => simpa using ih

/-- If no name of a pattern stood right before `>`, no segment would begin with a word there. -/
theorem segment_clear (h : Segment .clear ts e) : ¬ Transforms ts := by
  cases h with
  | bare h => simpa using body_clear h
  | accented hl =>
    rintro ⟨w, ls, name, hls, hw, -⟩
    cases hls
    rw [hl] at hw
    cases hw

/-- A preset right before `>` is read as the pattern to transform. -/
theorem name_before_greater : ¬ ∀ (text : List Char) (tokens : List Lexeme) (e : Expr),
    tokenize 0 text = .ok tokens → (parseExpr text = .ok e ↔ Segment .clear tokens e) := by
  intro h
  have hparse : (parseExpr "tresillo>5".toList).toOption.isSome = true := by decide +kernel
  have hfirst : ((tokenize 0 "tresillo>5".toList).map (·.map (·.token))).toOption =
      some [.word "tresillo".toList, .mark .greater, .digits ['5']] := by decide +kernel
  cases ht : tokenize 0 "tresillo>5".toList with
  | error x =>
    rw [ht] at hfirst
    cases hfirst
  | ok tokens =>
    rw [ht] at hfirst
    cases he : parseExpr "tresillo>5".toList with
    | error x =>
      rw [he] at hparse
      cases hparse
    | ok e =>
      refine segment_clear ((h _ _ e ht).1 he) ?_
      have hmap : tokens.map (·.token) =
        [.word "tresillo".toList, .mark .greater, .digits ['5']] := Option.some.inj hfirst
      obtain ⟨w, more, rfl, hw, hmore⟩ := List.map_eq_cons_iff.1 hmap
      obtain ⟨g, _, rfl, hg, -⟩ := List.map_eq_cons_iff.1 hmore
      exact ⟨w, _, _, rfl, hw, starts_cons_iff.2 hg⟩

/-- The least integer of 64 bits cannot be written: its digits alone are already beyond the largest
one, whatever stands in front of them. -/
theorem least_integer_unread : ¬ ∀ (text ds : List Char) (bits turn sign number : Lexeme),
    tokenize 0 text = .ok [bits, turn, sign, number] → bits.token = .digits ['1'] →
    turn.token = .mark .at → sign.token = .mark .minus → number.token = .digits ds →
    decimalValue ds ≤ 0x8000000000000000 → ∃ e, parseExpr text = .ok e := by
  intro h
  have htokens : (tokenize 0 "1@-9223372036854775808".toList).toOption = some
      [⟨.digits ['1'], 0, 1⟩, ⟨.mark .at, 1, 1⟩, ⟨.mark .minus, 2, 1⟩,
        ⟨.digits "9223372036854775808".toList, 3, 19⟩] := by decide +kernel
  have hunread : (parseExpr "1@-9223372036854775808".toList).toOption = none := by decide +kernel
  cases ht : tokenize 0 "1@-9223372036854775808".toList with
  | error x =>
    rw [ht] at htokens
    cases htokens
  | ok tokens =>
    rw [ht] at htokens
    obtain rfl := Option.some.inj htokens
    obtain ⟨e, he⟩ := h _ _ _ _ _ _ ht rfl rfl rfl rfl (by decide)
    rw [he] at hunread
    cases hunread

end Rhythm.Notation
