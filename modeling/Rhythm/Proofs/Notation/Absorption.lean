import Rhythm.Proofs.Notation.Rereading

/-! Expressions that are read back as something else: a plus and a literal taken for an offset. -/
namespace Rhythm.Notation

open Text Phrase Rhythm.Notation.Expr

variable {ts ls us rest : List Lexeme} {l : Lexeme} {e left : Expr} {p : Pattern} {naming : Naming}
  {t : Rhythm.Notation.Tail} {b : Bool} {span : Span}

theorem Phrase.Combo.operand {how : Merge} {right : Expr}
    (h : Phrase.Combo naming ts rest (.combination how left right span)) :
    ∃ us vs, Phrase.Combo naming us vs left := by
  generalize he : Expr.combination how left right span = e at h
  cases h with
  | term h =>
    cases h with
    | primary h =>
      cases h with
      | call _ _ h => cases h <;> cases he
      | _ => cases he
    | _ => cases he
  | merge h _ _ =>
    cases he
    exact ⟨_, _, h⟩

/-- Without its right operand a chain is still one that can be read. -/
theorem dropOperand_again (h : Phrase.Chain naming ts rest e)
    (hlast : e.lastCombo = .combination .add left (.literal p) span) :
    e.tokens = e.dropOperand.tokens ++ [.mark .plus, .digits p.bits] ∧
      ∀ ls : List Lexeme, ls.map (·.token) = e.dropOperand.tokens → ChainLike ls e.dropOperand := by
  cases h with
  | one h =>
    rw [combo_lastCombo h] at hlast
    subst hlast
    obtain ⟨_, _, hleft⟩ := h.operand
    exact ⟨rfl, fun ls hl => chain_of_combo hleft hl⟩
  | @several es h hlen =>
    have hne : es ≠ [] := List.ne_nil_of_length_pos (by omega)
    rw [lastCombo, List.getLast?_eq_some_getLast hne, Option.getD_some] at hlast
    obtain ⟨_, _, hcombo⟩ := h.mem (List.getLast_mem hne)
    rw [hlast] at hcombo
    obtain ⟨_, _, hleft⟩ := hcombo.operand
    have hdrop : dropOperand (.chain es (stretch ts)) =
        .chain (es.dropLast ++ [left]) (stretch ts) := by
      rw [dropOperand, List.getLast?_eq_some_getLast hne, hlast]
      rfl
    rw [hdrop]
    refine ⟨?_, fun ls hl => chain_of_combos (fun x hx => ?_) ?_ hl⟩
    · conv_lhs => rw [← List.dropLast_append_getLast hne, hlast]
      simp [tokens, tokensAll_eq_map, signMark]
    · rcases List.mem_append.1 hx with hx | hx
      · exact combos_all h x (List.dropLast_subset es hx)
      · rw [List.mem_singleton.1 hx]
        exact fun _ => combo_again hleft
    · rw [List.length_append, List.length_dropLast, List.length_singleton]
      omega

theorem Expr.IsChain.isProgressive (h : e.IsChain) : e.isProgressive = false := by
  induction h with
  | literal | generator | bell => rfl
  | combination _ _ hl hr => rw [Expr.isProgressive, hl, hr, Bool.or_false]
  | chain _ ih =>
    rw [Expr.isProgressive, anyProgressive_eq, List.any_eq_false]
    intro x hx
    rw [ih x hx]
    exact Bool.false_ne_true
  | invert _ ih | reverse _ ih => rw [Expr.isProgressive, ih]

theorem Phrase.Body.isProgressive (h : Phrase.Body naming ts rest b e) : e.isProgressive = b := by
  induction h with
  | chain h _ => exact h.isChain.isProgressive
  | quantized _ _ ih | rotate _ _ ih => rw [Expr.isProgressive, ih]
  | progressive => rw [Expr.isProgressive]

/-- How a body comes out whose last literal is taken for an offset. -/
inductive Taken (p : Pattern) (rest : Expr) (b : Bool) (c d : Cursor) : Prop
  | going {s : Span} {e : Expr} (hv : decimalValue p.bits ≤ maxInteger) (hb : b = false)
    (hcore : e.core.unplaced = rest.unplaced)
    (hfirst : e.firstTail? = some (.evolve (.offset (decimalValue p.bits))))
    (h : body c = tails c.span (some s) e d)
  | second {s s' : Span} (hv : decimalValue p.bits ≤ maxInteger) (hb : b = true)
    (h : body c = .error ⟨.secondProgressive s, s'⟩)
  | tooLarge {s : Span} (hv : maxInteger < decimalValue p.bits)
    (h : body c = .error ⟨.integerTooLarge p.bits, s⟩)

theorem integer_too_large {c : Cursor} {ds : List Char} (ha : c.ahead = l :: ls)
    (hl : l.token = .digits ds) (hv : maxInteger < decimalValue ds) :
    ∃ s, integer c = .error ⟨.integerTooLarge ds, s⟩ := by
  have hm : c.at? .minus = false := Cursor.at?_ne ha (by rw [hl]; exact nofun)
  refine ⟨c.span.join c.span, ?_⟩
  unfold integer
  dsimp only
  rw [hm, if_neg Bool.false_ne_true, Cursor.token?_eq ha, hl]
  dsimp only
  rw [if_neg (Nat.not_le.2 hv)]

theorem chain_taken {c f d : Cursor} {s l : Lexeme}
    (h : Phrase.Chain naming us (s :: l :: d.ahead) left) (hp : c.Passes us f)
    (hq : f.Passes [s, l] d) (hs : s.token = .mark .plus) (hl : l.token = .digits p.bits)
    (hm : Closes d.ahead) (he : left.unplaced = e.unplaced) : Taken p e false c d := by
  have hbody : Phrase.Body naming us (s :: l :: d.ahead) false left := by
    refine .chain h fun l' ls' heq _ => ?_
    cases heq
    exact .plain hl hm
  obtain ⟨first?, hfirst, heq⟩ := body_eq_tails hbody hp hq.ahead (trails_of_mark hs (by decide))
  obtain rfl : first? = none := by simpa using hfirst
  rcases Nat.lt_or_ge maxInteger (decimalValue p.bits) with hv | hv
  · obtain ⟨place, hi⟩ := integer_too_large hq.tail.head hl hv
    have htail : tail? f = .error ⟨.integerTooLarge p.bits, place⟩ := by
      rw [tail?, hq.token?, hs]
      dsimp only
      rw [hi]
      rfl
    exact .tooLarge hv (heq.trans (tails_error htail))
  · have htail := tail?_complete (.offset (.inl hs) (.plain hl hv)) hq
    refine .going hv rfl ?_ ?_ (heq.trans (tails_evolve htail))
    · rw [core, core_of_isChain h.isChain, he]
    · rw [firstTail?, firstTail?_of_isChain h.isChain, Option.getD_none]

/-- A later tail that is not progressive changes neither the chain nor the first tail. -/
theorem Taken.tail {c f d : Cursor} (h : Taken p e b c f) (g : Expr → Expr)
    (hg : ∀ x, (g x).core = x.core ∧ (g x).firstTail? = some (x.firstTail?.getD t))
    (ht : ∀ s x, tails c.span (some s) x f = tails c.span (some s) (g x) d) : Taken p e b c d := by
  cases h with
  | @going s x hv hb hcore hfirst h =>
    obtain ⟨hc, hf⟩ := hg x
    refine .going hv hb (hc ▸ hcore) ?_ (h.trans (ht s x))
    rw [hf, hfirst, Option.getD_some]
  | second hv hb h => exact .second hv hb h
  | tooLarge hv h => exact .tooLarge hv h

/-- A progressive tail comes second. -/
theorem Taken.progressive {c f d : Cursor} {suffix : Suffix} (h : Taken p e false c f)
    (ht : tail? f = .ok (some (.evolve suffix), d)) : Taken p e true c d := by
  cases h with
  | going hv _ _ _ h => exact .second hv rfl (h.trans (tails_second ht))
  | second _ hb _ => cases hb
  | tooLarge hv h => exact .tooLarge hv h

theorem not_offset_of_getD {f? : Option Rhythm.Notation.Tail}
    (h : ∀ n, some (f?.getD t) ≠ some (.evolve (.offset n))) (n : Int) :
    f? ≠ some (.evolve (.offset n)) := by
  cases f? with
  | none => exact nofun
  | some t' => exact h n

theorem closes_of_getD {f? : Option Rhythm.Notation.Tail}
    (h : ∀ n, some (f?.getD t) ≠ some (.evolve (.offset n)))
    (hl : us.map (·.token) = t.tokens) (hn : f? = none) : Closes (us ++ rest) := by
  refine closes_of_tail (rest.map (·.token)) (t := t) (fun n ht => h n ?_) ?_
  · rw [hn, Option.getD_none, ht]
  · rw [List.map_append, hl]

/-- The chain of a body is read without its last literal. -/
theorem body_taken {c d : Cursor} (h : Phrase.Body naming ts rest b e)
    (hl : ls.map (·.token) = e.tokens)
    (hlast : e.core.lastCombo = .combination .add left (.literal p) span)
    (hfirst : ∀ n, e.firstTail? ≠ some (.evolve (.offset n))) (hp : c.Passes ls d)
    (hr : e.firstTail? = none → Closes d.ahead) : Taken p e.core.dropOperand b c d := by
  induction h generalizing ls d with
  | chain h _ =>
    rw [core_of_isChain h.isChain] at hlast ⊢
    obtain ⟨htokens, hagain⟩ := dropOperand_again h hlast
    rw [htokens] at hl
    obtain ⟨us, _, rfl, hu, hl⟩ := List.map_eq_append_iff.1 hl
    obtain ⟨s, _, rfl, hs, hl⟩ := List.map_eq_cons_iff.1 hl
    obtain ⟨l, rfl, hd⟩ := List.map_eq_singleton_iff.1 hl
    obtain ⟨f, hp', hq, -⟩ := hp.split
    obtain ⟨-, e', he', hread⟩ := hagain us hu
    exact chain_taken (hread _ fun _ => not_closes_of_mark hs (by decide)) hp' hq hs hd
      (hr (firstTail?_of_isChain h.isChain)) he'
  | @quantized _ _ _ _ _ steps clockwise _ ht ih =>
    rw [tokens] at hl
    obtain ⟨us, vs, rfl, hu, hv⟩ := List.map_eq_append_iff.1 hl
    obtain ⟨f, hp', hq, hf⟩ := hp.split
    have hinner := ih hu hlast (not_offset_of_getD hfirst) hp' fun hn =>
      hf ▸ closes_of_getD hfirst hv hn
    exact hinner.tail (.quantized · steps clockwise (d.since c.span)) (fun _ => ⟨rfl, rfl⟩)
      fun _ _ => tails_quantize (tail?_complete (tail_again ht hv) hq)
  | @rotate _ _ _ _ _ n _ ht ih =>
    rw [tokens] at hl
    obtain ⟨us, vs, rfl, hu, hv⟩ := List.map_eq_append_iff.1 hl
    obtain ⟨f, hp', hq, hf⟩ := hp.split
    have hinner := ih hu hlast (not_offset_of_getD hfirst) hp' fun hn =>
      hf ▸ closes_of_getD hfirst hv hn
    exact hinner.tail (.rotate · n) (fun _ => ⟨rfl, rfl⟩)
      fun _ _ => tails_rotate (tail?_complete (tail_again ht hv) hq)
  | progressive _ ht ih =>
    rw [tokens] at hl
    obtain ⟨us, vs, rfl, hu, hv⟩ := List.map_eq_append_iff.1 hl
    obtain ⟨f, hp', hq, hf⟩ := hp.split
    have hinner := ih hu hlast (not_offset_of_getD hfirst) hp' fun hn =>
      hf ▸ closes_of_getD hfirst hv hn
    exact hinner.progressive (tail?_complete (tail_again ht hv) hq)

theorem body_opens (h : Phrase.Body naming ts rest b e) (hl : ls.map (·.token) = e.tokens)
    (more : List Lexeme) : Opens (ls ++ more) := by
  induction h generalizing ls more with
  | chain h _ => exact (chain_again h hl).opens more
  | quantized _ _ ih | rotate _ _ ih | progressive _ _ ih =>
    rw [tokens] at hl
    obtain ⟨us, vs, rfl, hu, -⟩ := List.map_eq_append_iff.1 hl
    rw [List.append_assoc]
    exact ih hu _

theorem segment_of_opens {c : Cursor} (ho : Opens c.ahead) : segment c = ending id (body c) := by
  have hne : c.ahead.isEmpty = false := by
    rw [List.isEmpty_eq_false_iff]
    intro hnil
    rw [hnil] at ho
    cases ho
  have hbrace : c.at? .leftBrace = false :=
    Cursor.at?_eq_false_iff.2 (opens_not_starts ho (by decide) (by decide))
  rw [segment, hne, hbrace, if_neg Bool.false_ne_true, if_neg Bool.false_ne_true]
  rfl

theorem segment_of_accent {c f : Cursor} {a : Expr} (ha : c.ahead = l :: ls)
    (hl : l.token = .mark .leftBrace) (h : accent c = .ok (a, f)) :
    segment c = ending (.accented a) (body f) := by
  have hne : c.ahead.isEmpty = false := by
    rw [ha]
    rfl
  rw [segment, hne, Cursor.at?_of_ahead ha hl, if_neg Bool.false_ne_true, if_pos rfl, h]
  rfl

/-- What comes of a text whose last literal is taken for an offset: an expression with this offset
right after the rest of the chain, unless there is one more progressive tail or the offset is too
large. -/
inductive OffsetReading (e : Expr) (p : Pattern) : Fallible Expr → Prop
  | read {e' : Expr} (hv : decimalValue p.bits ≤ maxInteger) (hp : e.isProgressive = false)
    (hcore : e'.core.unplaced = e.core.dropOperand.unplaced)
    (hfirst : e'.firstTail? = some (.evolve (.offset (decimalValue p.bits)))) :
    OffsetReading e p (.ok e')
  | second {s s' : Span} (hv : decimalValue p.bits ≤ maxInteger) (hp : e.isProgressive = true) :
    OffsetReading e p (.error ⟨.secondProgressive s, s'⟩)
  | tooLarge {s : Span} (hv : maxInteger < decimalValue p.bits) :
    OffsetReading e p (.error ⟨.integerTooLarge p.bits, s⟩)

theorem Taken.reading {c d : Cursor} {f : Expr → Expr}
    (h : Taken p e.core.dropOperand e.isProgressive c d) (hd : d.ahead = [])
    (hf : ∀ x, (f x).core = x.core ∧ (f x).firstTail? = x.firstTail?) :
    OffsetReading e p (ending f (body c)) := by
  cases h with
  | @going s x hv hb hcore hfirst h =>
    have hnone : tail? d = .ok (none, d) := by rw [tail?, Cursor.token?_nil hd]
    rw [h, tails_none hnone, ending_eq_ok_iff.2 ⟨x, d, rfl, hd, rfl⟩]
    obtain ⟨hc, ht⟩ := hf x
    exact .read hv hb (hc ▸ hcore) (ht.trans hfirst)
  | second hv hb h =>
    rw [h]
    exact .second hv hb
  | tooLarge hv h =>
    rw [h]
    exact .tooLarge hv

theorem segment_taken {c : Cursor} (h : Phrase.Segment naming ts e)
    (hl : c.ahead.map (·.token) = e.tokens)
    (hlast : e.core.lastCombo = .combination .add left (.literal p) span)
    (hfirst : ∀ n, e.firstTail? ≠ some (.evolve (.offset n))) :
    OffsetReading e p (segment c) := by
  cases h with
  | bare h =>
    have hopens := body_opens h hl []
    rw [List.append_nil] at hopens
    have hpass : c.Passes c.ahead ⟨lastSpan c.behind c.ahead, [], c.finish⟩ :=
      ⟨(List.append_nil _).symm, rfl, rfl⟩
    have htaken := body_taken h hl hlast hfirst hpass fun _ => .nil
    rw [← h.isProgressive] at htaken
    rw [segment_of_opens hopens]
    exact htaken.reading rfl fun _ => ⟨rfl, rfl⟩
  | @accented _ _ _ _ b a body _ ht _ h =>
    rw [tokens, List.cons_append] at hl
    obtain ⟨l, _, hahead, hopen, hl⟩ := List.map_eq_cons_iff.1 hl
    obtain ⟨us, _, rfl, hu, hl⟩ := List.map_eq_append_iff.1 hl
    obtain ⟨r, vs, rfl, hclose, hv⟩ := List.map_eq_cons_iff.1 hl
    obtain ⟨-, -, a', -, hterm⟩ := term_again ht hu
    have hpass : c.Passes (l :: (us ++ [r])) ⟨lastSpan c.behind (l :: (us ++ [r])), vs, c.finish⟩ :=
      ⟨by simp [hahead], rfl, rfl⟩
    have haccent := accent_complete hpass (hterm _) hclose
    generalize hf : (⟨lastSpan c.behind (l :: (us ++ [r])), vs, c.finish⟩ : Cursor) = f at haccent
    have hpass' : f.Passes vs ⟨lastSpan f.behind vs, [], f.finish⟩ := by
      rw [← hf]
      exact ⟨(List.append_nil _).symm, rfl, rfl⟩
    have htaken := body_taken h hv hlast hfirst hpass' fun _ => .nil
    have hflag : (Expr.accented a body).isProgressive = b := by
      rw [Expr.isProgressive, ht.isChain.isProgressive, h.isProgressive, Bool.false_or]
    rw [← hflag] at htaken
    rw [segment_of_accent hahead hopen haccent]
    exact htaken.reading rfl fun _ => ⟨rfl, rfl⟩

/-- An expression is read back from its own text, up to places, if and only if its chain does not
end in a plus and a literal with anything but an offset after them. If it does, both are taken for
an offset. -/
theorem reread_iff {text : List Char} (h : parseExpr text = .ok e) :
    ((∃ e', parseExpr e.text = .ok e' ∧ e'.unplaced = e.unplaced) ↔ ¬ e.Absorbs) ∧
      ∀ left p span, e.core.lastCombo = .combination .add left (.literal p) span →
        (∀ n, e.firstTail? ≠ some (.evolve (.offset n))) →
        OffsetReading e p (parseExpr e.text) := by
  obtain ⟨_, -, hsegment⟩ := (parseExpr_eq_ok_iff text e).1 h
  obtain ⟨ls, hls, hl⟩ := tokenize_text 0 e
  have htaken : ∀ left p span, e.core.lastCombo = .combination .add left (.literal p) span →
      (∀ n, e.firstTail? ≠ some (.evolve (.offset n))) →
      OffsetReading e p (parseExpr e.text) := by
    intro left p span hlast hfirst
    rw [parseExpr, parseSegment, hls]
    exact segment_taken (c := .start 0 e.text ls) hsegment hl hlast hfirst
  refine ⟨⟨?_, fun ha => ?_⟩, htaken⟩
  · rintro ⟨e', hread, he'⟩ ⟨⟨left, p, span, hlast⟩, hfirst⟩
    have hreading := htaken left p span hlast hfirst
    rw [hread] at hreading
    cases hreading with
    | read _ _ _ hoffset =>
      rw [← unplaced_firstTail?, he', unplaced_firstTail?] at hoffset
      exact hfirst _ hoffset
  · obtain ⟨e', he', hread⟩ := segment_again hsegment hl ha
    exact ⟨e', (parseExpr_eq_ok_iff _ _).2 ⟨ls, hls, hread⟩, he'⟩

/-- A literal with a length is written without it, and so it is read back as an offset. -/
theorem reread_of_literal : ∃ e, parseExpr "1+1:1".toList = .ok e ∧ e.Absorbs ∧
    ¬ ∃ e', parseExpr e.text = .ok e' ∧ e'.unplaced = e.unplaced := by
  have htext : (parseExpr "1+1:1".toList).toOption.map Expr.text = some "1+1".toList := by
    decide +kernel
  have hfirst : (parseExpr "1+1:1".toList).toOption.map (·.firstTail?.isSome) = some false := by
    decide +kernel
  have hoffset : (parseExpr "1+1".toList).toOption.map (·.firstTail?.isSome) = some true := by
    decide +kernel
  cases h : parseExpr "1+1:1".toList with
  | error x =>
    rw [h] at htext
    cases htext
  | ok e =>
    rw [h] at htext hfirst
    have hread : ¬ ∃ e', parseExpr e.text = .ok e' ∧ e'.unplaced = e.unplaced := by
      rintro ⟨e', he', heq⟩
      rw [show e.text = "1+1".toList from Option.some.inj htext] at he'
      rw [he'] at hoffset
      have htail : e'.firstTail? = e.firstTail? := by
        rw [← unplaced_firstTail?, heq, unplaced_firstTail?]
      change some e'.firstTail?.isSome = some true at hoffset
      rw [htail] at hoffset
      cases hoffset.symm.trans hfirst
    refine ⟨e, rfl, ?_, hread⟩
    by_contra ha
    exact hread ((reread_iff h).1.2 ha)

end Rhythm.Notation
