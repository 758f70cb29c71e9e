import Mathlib.Tactic.ByContra
import Rhythm.Proofs.Notation.Primaries

/-! Terms, combinations and chains are read as the grammar has them. -/
namespace Rhythm.Notation

open Text Phrase Cursor

variable {c d : Cursor} {ts us ls rest : List Lexeme} {l : Lexeme} {e left : Expr} {es : List Expr}
  {naming : Naming} {how : Merge} {name : List Char} {place : Span}

theorem peek_one (ha : c.ahead = l :: ls) : c.peek 1 = c.next.token? := by
  rw [peek_succ ha, peek_zero]

theorem isTransformer_iff (ha : c.ahead = l :: ls) :
    c.isTransformer 0 = true ↔ Starts .greater ls := by
  have hnext : c.next.ahead = ls := by rw [next_eq ha]
  rw [← hnext, ← at?_iff, isTransformer, peek_one ha]
  rfl

theorem startsTerm_iff : c.startsTerm 0 = true ↔ Opens c.ahead := by
  cases ha : c.ahead with
  | nil =>
    rw [startsTerm, peek_zero, token?_nil ha]
    exact ⟨nofun, nofun⟩
  | cons l ls =>
    rw [startsTerm, peek_zero, token?_eq ha]
    constructor
    · intro h
      split at h
      · next ht => exact .digits (Option.some.inj ht)
      · next ht => exact .code (Option.some.inj ht)
      · next ht => exact .morse (Option.some.inj ht)
      · next ht => exact .bracket (Option.some.inj ht)
      · next ht => exact .tilde (Option.some.inj ht)
      · next ht =>
        refine .word (Option.some.inj ht) ?_
        rw [← isTransformer_iff ha]
        simpa using h
      · cases h
    · intro h
      cases h with
      | digits ht => rw [ht]
      | code ht => rw [ht]
      | morse ht => rw [ht]
      | bracket ht => rw [ht]
      | tilde ht => rw [ht]
      | word ht hg =>
        rw [ht]
        simpa [← isTransformer_iff ha] using hg

theorem startsTerm_succ (ha : c.ahead = l :: ls) (i : Nat) :
    c.startsTerm (i + 1) = c.next.startsTerm i := by
  rw [startsTerm, startsTerm, isTransformer, isTransformer, peek_succ ha, peek_succ ha]

theorem startsTerm_one (ha : c.ahead = l :: ls) : c.startsTerm 1 = true ↔ Opens ls := by
  rw [startsTerm_succ ha, startsTerm_iff, next_eq ha]

theorem not_opens_of_mark {m : Mark} (hl : l.token = .mark m) (hb : m ≠ .leftBracket)
    (ht : m ≠ .tilde) : ¬ Opens (l :: ls) := by
  intro h
  cases h <;> simp_all

theorem opens_not_starts {m : Mark} (h : Opens ls) (hb : m ≠ .leftBracket) (ht : m ≠ .tilde) :
    ¬ Starts m ls := by
  intro hm
  cases h <;> rw [starts_cons_iff] at hm <;> simp_all

theorem calm_of_opens (h : Opens ls) : Calm ls :=
  ⟨opens_not_starts h (by decide) (by decide), opens_not_starts h (by decide) (by decide)⟩

theorem operator?_sound {f : Expr → Expr} (h : c.operator? = some f) : ∃ l ls,
    c.ahead = l :: ls ∧ (l.token = .mark .tilde ∧ f = .invert ∨
      ∃ name, l.token = .word name ∧ Opens ls ∧
        (sameWord name "rev".toList = true ∧ f = .reverse ∨
        (sameWord name "inv".toList = true ∨ sameWord name "comp".toList = true) ∧
          f = .invert)) := by
  unfold Cursor.operator? at h
  split at h
  · next ht =>
    obtain ⟨l, ls, ha, hl⟩ := exists_of_token? ht
    exact ⟨l, ls, ha, .inl ⟨hl, (Option.some.inj h).symm⟩⟩
  · next name ht =>
    obtain ⟨l, ls, ha, hl⟩ := exists_of_token? ht
    refine ⟨l, ls, ha, .inr ⟨name, hl, ?_⟩⟩
    split at h
    · cases h
    · next ho =>
      refine ⟨(startsTerm_one ha).1 (by simpa using ho), ?_⟩
      split at h
      · next hname => exact .inl ⟨hname, (Option.some.inj h).symm⟩
      · split at h
        · next hname => exact .inr ⟨by simpa using hname, (Option.some.inj h).symm⟩
        · cases h
  · cases h

theorem term_sound (h : term c = .ok (e, d)) :
    ∃ ts, c.Passes ts d ∧ Term .anywhere ts d.ahead e := by
  fun_induction term c generalizing e d with
  | case1 =>
    obtain ⟨ts, hp, ht⟩ := primary_sound h
    exact ⟨ts, hp, .primary ht⟩
  | case2 => cases h
  | case3 c f hf e' d' hr ih =>
    cases h
    obtain ⟨ts, hp, ht⟩ := ih hr
    obtain ⟨l, ls, ha, hl⟩ := operator?_sound hf
    have hpass := Passes.cons ha hp
    have hls : ls = ts ++ d'.ahead := by simpa [ha] using hpass.ahead
    refine ⟨l :: ts, hpass, ?_⟩
    rcases hl with ⟨hl, rfl⟩ | ⟨name, hl, ho, ⟨hname, rfl⟩ | ⟨hname, rfl⟩⟩
    · exact .tilde hl ht
    · exact .reverse hl hname (hls ▸ ho) ht
    · exact .invert hl hname (hls ▸ ho) ht

theorem sameWord_congr {word : List Char} (h : sameWord name word = true) (w : List Char) :
    sameWord name w = sameWord word w := by
  have hmap : name.map Char.toLower = word.map Char.toLower := by simpa [sameWord] using h
  rw [sameWord, sameWord, hmap]

theorem preset?_of_sameWord {word : List Char} (h : sameWord name word = true) :
    preset? name = preset? word := by
  simp only [preset?, sameWord_congr h]

/-- No operator is the name of a pattern. -/
theorem not_operator_of_preset? {p : Pattern} (h : preset? name = some p) :
    sameWord name "rev".toList = false ∧ sameWord name "inv".toList = false ∧
      sameWord name "comp".toList = false := by
  have hnot : ∀ word, preset? word = none → sameWord name word = false := by
    intro word hw
    rw [← Bool.not_eq_true]
    intro hs
    rw [preset?_of_sameWord hs, hw] at h
    cases h
  exact ⟨hnot _ (by decide +kernel), hnot _ (by decide +kernel), hnot _ (by decide +kernel)⟩

theorem operator?_of_primary (hp : c.Passes ts d) (h : Primary naming ts rest e) :
    c.operator? = none := by
  cases h with
  | binary hl => rw [operator?, hp.token?, hl]
  | decimal hl => rw [operator?, hp.token?, hl]
  | code hl => rw [operator?, hp.token?, hl]
  | morse hl => rw [operator?, hp.token?, hl]
  | onsets hl => rw [operator?, hp.token?, hl]
  | call hl hf hcall =>
    have ho : c.startsTerm 1 = false := by
      rw [← Bool.not_eq_true, startsTerm_one hp.head]
      intro ho
      exact opens_not_starts ho (by decide) (by decide) (call_starts hcall _)
    rw [operator?, hp.token?, hl]
    dsimp only
    rw [ho, Bool.not_false, if_pos rfl]
  | preset hl hpat _ =>
    obtain ⟨hrev, hinv, hcomp⟩ := not_operator_of_preset? hpat
    rw [operator?, hp.token?, hl]
    dsimp only
    rw [hrev, hinv, hcomp]
    split <;> rfl

theorem operator?_of_word (ha : c.ahead = l :: ls) (hl : l.token = .word name) (ho : Opens ls) :
    c.operator? = if sameWord name "rev".toList then some .reverse
      else if sameWord name "inv".toList || sameWord name "comp".toList then some .invert
      else none := by
  rw [operator?, token?_eq ha, hl]
  dsimp only
  rw [(startsTerm_one ha).2 ho]
  rfl

theorem term_of_operator? {f : Expr → Expr} (hf : c.operator? = some f)
    (h : term c.next = .ok (e, d)) : term c = .ok (f e, d) := by
  rw [term]
  split
  · next hn => cases hf.symm.trans hn
  · next g hg =>
    cases hf.symm.trans hg
    rw [h]

theorem term_complete (h : Term naming ts rest e) (hp : c.Passes ts d) (hr : d.ahead = rest)
    (hd : Calm rest) : term c = .ok (e, d) := by
  induction h generalizing c with
  | primary h =>
    have hop := operator?_of_primary hp h
    subst hr
    rw [term]
    split
    · exact primary_complete hp h hd
    · next hf => cases hop.symm.trans hf
  | tilde hl _ ih =>
    refine term_of_operator? ?_ (ih hp.tail hr hd)
    rw [operator?, hp.token?, hl]
  | @invert l ts rest name e hl hname ho _ ih =>
    refine term_of_operator? ?_ (ih hp.tail hr hd)
    rw [← hr] at ho
    have hrev : sameWord name "rev".toList = false := by
      rcases hname with hname | hname <;> rw [sameWord_congr hname] <;> decide
    rw [operator?_of_word hp.head hl ho, hrev, if_neg Bool.false_ne_true,
      if_pos (by simpa using hname)]
  | reverse hl hname ho _ ih =>
    refine term_of_operator? ?_ (ih hp.tail hr hd)
    rw [← hr] at ho
    rw [operator?_of_word hp.head hl ho, if_pos hname]

theorem primary_ne_nil (h : Primary naming ts rest e) : ts ≠ [] := by
  cases h <;> exact List.cons_ne_nil _ _

theorem term_ne_nil (h : Term naming ts rest e) : ts ≠ [] := by
  cases h with
  | primary h => exact primary_ne_nil h
  | _ => exact List.cons_ne_nil _ _

theorem closes_cons_iff : Closes (l :: ls) ↔
    (∃ m ∈ [Mark.semicolon, .greater, .star, .at, .percent, .rightBrace], l.token = .mark m) ∨
      (∃ name, l.token = .word name) ∧ Starts .greater ls := by
  constructor
  · intro h
    cases h with
    | mark ht hm => exact .inl ⟨_, hm, ht⟩
    | transformer ht hg => exact .inr ⟨⟨_, ht⟩, hg⟩
  · rintro (⟨m, hm, ht⟩ | ⟨⟨name, ht⟩, hg⟩)
    · exact .mark ht hm
    · exact .transformer ht hg

/-- Digits stand `i` places further, and what closes an offset after them. -/
theorem digits_closed_iff {i : Nat} (hd : c.ahead.drop i = l :: ls) :
    (match c.peek i, c.peek (i + 1) with
      | some (.digits _), none => true
      | some (.digits _), some (.mark m) =>
        decide (m ∈ [Mark.semicolon, .greater, .star, .at, .percent, .rightBrace])
      | some (.digits _), some (.word _) => c.isTransformer (i + 1)
      | _, _ => false) = true ↔ (∃ ds, l.token = .digits ds) ∧ Closes ls := by
  have hpeek : ∀ j, c.peek (i + j) = (l :: ls)[j]?.map (·.token) := by
    intro j
    rw [peek, ← hd, List.getElem?_drop]
  have h0 := hpeek 0
  have h1 := hpeek 1
  have h2 := hpeek 2
  simp only [Nat.add_zero, List.getElem?_cons_zero, List.getElem?_cons_succ, Option.map_some]
    at h0 h1 h2
  rw [h0, h1, isTransformer, h2]
  cases ls with
  | nil => cases l.token <;> simp [Closes.nil]
  | cons k ls =>
    rw [closes_cons_iff, Starts, List.head?_eq_getElem?]
    simp only [List.getElem?_cons_zero, Option.map_some]
    cases l.token <;> cases k.token <;> simp

theorem offsetAhead_iff (ha : c.ahead = l :: ls) : c.offsetAhead = true ↔ Offsets ls := by
  have hpeek : ∀ i, c.peek (i + 1) = ls[i]?.map (·.token) := by
    intro i
    rw [peek, ha, List.getElem?_cons_succ]
  have hdrop : ∀ i, c.ahead.drop (i + 1) = ls.drop i := by
    intro i
    rw [ha, List.drop_succ_cons]
  unfold Cursor.offsetAhead
  by_cases hm : c.peek 1 = some (.mark .minus)
  · rw [if_pos hm]
    obtain ⟨s, ls, rfl, hs⟩ : ∃ s ls', ls = s :: ls' ∧ s.token = .mark .minus := by
      rw [hpeek 0] at hm
      cases ls with
      | nil => cases hm
      | cons s ls => exact ⟨s, ls, rfl, Option.some.inj hm⟩
    cases ls with
    | nil =>
      have hnone : c.peek 2 = none := hpeek 1
      dsimp only
      rw [hnone]
      refine iff_of_false Bool.false_ne_true ?_
      intro h
      cases h with
      | plain ht _ => cases hs.symm.trans ht
    | cons l ls =>
      refine (digits_closed_iff (hdrop 1)).trans ⟨?_, ?_⟩
      · rintro ⟨⟨ds, ht⟩, hc⟩
        exact .negative hs ht hc
      · intro h
        cases h with
        | plain ht _ => cases hs.symm.trans ht
        | negative _ ht hc => exact ⟨⟨_, ht⟩, hc⟩
  · rw [if_neg hm]
    cases ls with
    | nil =>
      have hnone : c.peek 1 = none := hpeek 0
      dsimp only
      rw [hnone]
      refine iff_of_false Bool.false_ne_true ?_
      intro h
      cases h
    | cons l ls =>
      refine (digits_closed_iff (hdrop 0)).trans ⟨?_, ?_⟩
      · rintro ⟨⟨ds, ht⟩, hc⟩
        exact .plain ht hc
      · intro h
        cases h with
        | plain ht hc => exact ⟨⟨_, ht⟩, hc⟩
        | negative hs _ _ => exact absurd ((hpeek 0).trans (congrArg some hs)) hm

theorem mergeSign?_sound (h : c.mergeSign? = some how) :
    ∃ s ls, c.ahead = s :: ls ∧ Sign s ls how := by
  unfold Cursor.mergeSign? at h
  split at h
  · next hm =>
    cases h
    obtain ⟨s, ls, ha, hs⟩ := exists_of_at? hm
    exact ⟨s, ls, ha, .minus hs⟩
  · split at h
    · next hp =>
      cases h
      obtain ⟨hp, ho⟩ : c.at? .plus = true ∧ c.offsetAhead = false := by simpa using hp
      obtain ⟨s, ls, ha, hs⟩ := exists_of_at? hp
      refine ⟨s, ls, ha, .plus hs ?_⟩
      rw [← offsetAhead_iff ha, ho]
      exact Bool.false_ne_true
    · cases h

theorem mergeSign?_complete (ha : c.ahead = l :: ls) (h : Sign l ls how) :
    c.mergeSign? = some how := by
  cases h with
  | minus hs => rw [mergeSign?, if_pos (at?_of_ahead ha hs)]
  | plus hs ho =>
    have hoff : c.offsetAhead = false := by rwa [← Bool.not_eq_true, offsetAhead_iff ha]
    rw [mergeSign?, at?_ne ha (by rw [hs]; decide), if_neg Bool.false_ne_true,
      at?_of_ahead ha hs, hoff]
    rfl

/-- No combination goes on if neither a minus comes next nor a plus, unless that of an offset. -/
theorem mergeSign?_eq_none_iff : c.mergeSign? = none ↔ ¬ Starts .minus c.ahead ∧
    ∀ l ls, c.ahead = l :: ls → l.token = .mark .plus → Offsets ls := by
  constructor
  · intro h
    constructor
    · intro hm
      rw [mergeSign?, if_pos (at?_iff.2 hm)] at h
      cases h
    · intro l ls ha hl
      by_contra ho
      rw [mergeSign?_complete ha (.plus hl ho)] at h
      cases h
  · rintro ⟨hm, hp⟩
    rw [← Option.not_isSome_iff_eq_none, Option.isSome_iff_exists]
    rintro ⟨how, hs⟩
    obtain ⟨s, ls, ha, hsign⟩ := mergeSign?_sound hs
    cases hsign with
    | minus ht =>
      rw [ha, starts_cons_iff] at hm
      exact hm ht
    | plus ht ho => exact ho (hp s ls ha ht)

theorem combo_ne_nil (h : Combo naming ts rest e) : ts ≠ [] := by
  cases h with
  | term h => exact term_ne_nil h
  | merge => simp

/-- The combination read so far and what goes on it make one combo. -/
theorem merges_sound {c₀ : Cursor} (hp : c₀.Passes ts c) (hl : Combo .anywhere ts c.ahead left)
    (h : merges c₀.span left c = .ok (e, d)) :
    ∃ us, c₀.Passes us d ∧ Combo .anywhere us d.ahead e ∧ d.mergeSign? = none := by
  fun_induction merges c₀.span left c generalizing e d ts with
  | case1 left c hm =>
    cases h
    exact ⟨ts, hp, hl, hm⟩
  | case2 => cases h
  | case3 left c how hm right f ht ih =>
    obtain ⟨s, ls, ha, hs⟩ := mergeSign?_sound hm
    obtain ⟨us, hp', hr⟩ := term_sound ht
    have hpass := Passes.cons ha hp'
    have hls : ls = us ++ f.ahead := by simpa [ha] using hpass.ahead
    rw [hpass.ahead] at hl
    have hc := Combo.merge hl (hls ▸ hs) hr
    rw [← (hp.trans hpass).since_of_ne_nil (combo_ne_nil hc)] at hc
    exact ih (hp.trans hpass) hc h

theorem combo_sound (h : combo c = .ok (e, d)) :
    ∃ ts, c.Passes ts d ∧ Combo .anywhere ts d.ahead e ∧ d.mergeSign? = none := by
  unfold combo at h
  split at h
  · cases h
  · next ht =>
    obtain ⟨ts, hp, ht⟩ := term_sound ht
    exact merges_sound hp (.term ht) h

/-- Where the grammar has a combo, the reading comes to its end with the combo in hand. -/
theorem combo_eq_merges (h : Combo naming ts rest e) (hp : c.Passes ts d) (hr : d.ahead = rest)
    (hd : Calm rest) : combo c = merges c.span e d := by
  induction h generalizing d with
  | term h => rw [combo, term_complete h hp hr hd]
  | @merge ts us rest s how left right hl hs ht ih =>
    obtain ⟨f, hp', hq, hf⟩ := hp.split
    have hcalm : Calm (s :: (us ++ rest)) := by
      cases hs with
      | minus hs => exact calm_of_mark hs (by decide) (by decide)
      | plus hs _ => exact calm_of_mark hs (by decide) (by decide)
    rw [hr] at hf
    have hsign := mergeSign?_complete hf hs
    have hterm := term_complete ht hq.tail hr hd
    have hsince := hp.since_of_ne_nil (combo_ne_nil (.merge hl hs ht))
    rw [ih hp' hf hcalm, merges]
    split
    · next hn => cases hsign.symm.trans hn
    · next how' hm =>
      cases hsign.symm.trans hm
      split
      · next hn => cases hterm.symm.trans hn
      · next hn =>
        cases hterm.symm.trans hn
        rw [hsince]

theorem merges_of_mergeSign? (h : c.mergeSign? = none) : merges place e c = .ok (e, c) := by
  rw [merges]
  split
  · rfl
  · next hm => cases h.symm.trans hm

theorem combo_complete (h : Combo naming ts rest e) (hp : c.Passes ts d) (hr : d.ahead = rest)
    (hd : Calm rest) (hm : d.mergeSign? = none) : combo c = .ok (e, d) := by
  rw [combo_eq_merges h hp hr hd, merges_of_mergeSign? hm]

theorem mergeSign?_of_opens (h : Opens c.ahead) : c.mergeSign? = none := by
  refine mergeSign?_eq_none_iff.2 ⟨opens_not_starts h (by decide) (by decide), ?_⟩
  intro l ls ha hl
  exact absurd (ha ▸ h) (not_opens_of_mark hl (by decide) (by decide))

theorem combos_sound (h : combos c = .ok (es, d)) (hm : c.mergeSign? = none) :
    (d.mergeSign? = none ∧ ¬ Opens d.ahead) ∧ (es = [] ∧ d = c ∨
      ∃ ts, c.Passes ts d ∧ Opens c.ahead ∧ Combos .anywhere ts d.ahead es) := by
  fun_induction combos c generalizing es d with
  | case1 => cases h
  | case2 => cases h
  | case3 c ho e f he es' d' hs ih =>
    cases h
    obtain ⟨ts, hp, hc, hm'⟩ := combo_sound he
    obtain ⟨hend, hrest⟩ := ih hs hm'
    refine ⟨hend, .inr ?_⟩
    rcases hrest with ⟨rfl, rfl⟩ | ⟨us, hp', ho', hcs⟩
    · exact ⟨ts, hp, startsTerm_iff.1 ho, .one hc⟩
    · rw [hp'.ahead] at hc ho'
      exact ⟨ts ++ us, hp.trans hp', startsTerm_iff.1 ho, .more hc ho' hcs⟩
  | case4 c ho =>
    cases h
    exact ⟨⟨hm, fun h => ho (startsTerm_iff.2 h)⟩, .inl ⟨rfl, rfl⟩⟩

theorem combos_ne_nil (h : Combos naming ts rest es) : ts ≠ [] := by
  cases h with
  | one h => exact combo_ne_nil h
  | more h => simp [combo_ne_nil h]

theorem chain_sound (h : chain c = .ok (e, d)) : ∃ ts, c.Passes ts d ∧
    Chain .anywhere ts d.ahead e ∧ d.mergeSign? = none ∧ ¬ Opens d.ahead := by
  simp only [chain, bind_eq_ok, pure, Except.pure, Except.ok.injEq, Prod.mk.injEq] at h
  obtain ⟨⟨first, f⟩, hfirst, ⟨others, g⟩, hothers, rfl, rfl⟩ := h
  obtain ⟨ts, hp, hc, hm⟩ := combo_sound hfirst
  obtain ⟨⟨hend, hopens⟩, hrest⟩ := combos_sound hothers hm
  rcases hrest with ⟨rfl, rfl⟩ | ⟨us, hp', ho, hcs⟩
  · exact ⟨ts, hp, .one hc, hm, hopens⟩
  · have hall := hp.trans hp'
    obtain ⟨second, more, rfl⟩ : ∃ second more, others = second :: more := by
      cases hcs <;> exact ⟨_, _, rfl⟩
    dsimp only at hp' hcs hall ho ⊢
    rw [hp'.ahead] at hc ho
    refine ⟨_, hall, ?_, hend, hopens⟩
    have hcs' := Combos.more hc ho hcs
    rw [List.isEmpty_cons, if_neg Bool.false_ne_true,
      hall.since_of_ne_nil (combos_ne_nil hcs')]
    exact .several hcs' (by simp)

/-- Nothing ahead goes on a pattern, a combination or a chain. -/
structure Rests (c : Cursor) : Prop where
  calm : Calm c.ahead
  merge : c.mergeSign? = none
  opens : ¬ Opens c.ahead

theorem combos_complete (h : Combos naming ts rest es) (hp : c.Passes ts d) (hr : d.ahead = rest)
    (hd : Rests d) : ∃ e es' f, es = e :: es' ∧ combo c = .ok (e, f) ∧ combos f = .ok (es', d) := by
  induction h generalizing c with
  | one h =>
    refine ⟨_, [], d, rfl, combo_complete h hp hr (hr ▸ hd.calm) hd.merge, ?_⟩
    rw [combos, if_neg (by simpa [startsTerm_iff] using hd.opens)]
  | more h ho _ ih =>
    obtain ⟨f, hp', hq, hf⟩ := hp.split
    obtain ⟨e, es, g, rfl, hcombo, hcombos⟩ := ih hq hr
    rw [hr] at hf
    refine ⟨_, _, f, rfl, combo_complete h hp' hf (calm_of_opens ho) ?_, ?_⟩
    · exact mergeSign?_of_opens (hf ▸ ho)
    · rw [combos, if_pos (startsTerm_iff.2 (hf ▸ ho))]
      split
      · next hn => cases hcombo.symm.trans hn
      · next hn =>
        cases hcombo.symm.trans hn
        rw [hcombos]

theorem chain_complete (h : Chain naming ts rest e) (hp : c.Passes ts d) (hr : d.ahead = rest)
    (hd : Rests d) : chain c = .ok (e, d) := by
  cases h with
  | one h =>
    obtain ⟨_, _, f, hes, hcombo, hcombos⟩ := combos_complete (.one h) hp hr hd
    cases hes
    simp only [chain, hcombo, bind, Except.bind, hcombos]
    rfl
  | several h hlen =>
    obtain ⟨first, others, f, rfl, hcombo, hcombos⟩ := combos_complete h hp hr hd
    have hothers : others.isEmpty = false := by
      cases others with
      | nil => simp at hlen
      | cons => rfl
    simp only [chain, hcombo, bind, Except.bind, hcombos, hothers,
      hp.since_of_ne_nil (combos_ne_nil h)]
    rfl

end Rhythm.Notation
