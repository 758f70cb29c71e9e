import Rhythm.Proofs.Notation.Acceptance
import Rhythm.Proofs.Notation.Cutting
import Rhythm.Proofs.Notation.Places

/-! Expressions read back from their own text. -/
namespace Rhythm.Notation

open Text Phrase Rhythm.Notation.Expr

variable {ts ls us rest : List Lexeme} {l : Lexeme} {n : Int} {k : Nat} {e left : Expr}
  {es : List Expr} {p : Pattern} {naming : Naming} {family : Family} {make : Span → Expr}
  {t : Rhythm.Notation.Tail} {b : Bool} {span : Span}

theorem natAbs_le_of_integer (h : Integer ts n) : n.natAbs ≤ maxInteger := by
  cases h with
  | plain _ hn => simpa using hn
  | negative _ _ hn => simpa using hn

/-- The tokens of a number of the notation are read as this number. -/
theorem integer_of_tokens (hle : n.natAbs ≤ maxInteger)
    (hl : ls.map (·.token) = numberTokens n) : Integer ls n := by
  have hval : decimalValue (Nat.toDigits 10 n.natAbs) = n.natAbs :=
    Nat.ofDigitChars_toDigits (by decide) (by decide)
  have hle : decimalValue (Nat.toDigits 10 n.natAbs) ≤ maxInteger := hval.symm ▸ hle
  unfold numberTokens at hl
  split at hl
  · obtain ⟨s, _, rfl, hs, hl⟩ := List.map_eq_cons_iff.1 hl
    obtain ⟨l, rfl, ht⟩ := List.map_eq_singleton_iff.1 hl
    have hn : n = -(decimalValue (Nat.toDigits 10 n.natAbs) : Int) := by omega
    rw [hn]
    exact .negative hs ht hle
  · obtain ⟨l, rfl, ht⟩ := List.map_eq_singleton_iff.1 hl
    have hn : n = (decimalValue (Nat.toDigits 10 n.natAbs) : Int) := by omega
    rw [hn]
    exact .plain ht hle

theorem count_of_tokens (hle : k ≤ maxInteger) (hl : ls.map (·.token) = numberTokens k) :
    Count ls k :=
  (integer_of_tokens (by simpa using hle) hl).toCount (Int.natCast_nonneg k)

theorem integer_again (h : Integer ts n) (hl : ls.map (·.token) = numberTokens n) :
    Integer ls n :=
  integer_of_tokens (natAbs_le_of_integer h) hl

theorem count_again (h : Count ts k) (hl : ls.map (·.token) = numberTokens k) : Count ls k :=
  (integer_again h.toInteger hl).toCount (Int.natCast_nonneg k)

theorem integers_of_tokens {ns : List Int} (hne : ns ≠ [])
    (hle : ∀ n ∈ ns, n.natAbs ≤ maxInteger)
    (hl : ls.map (·.token) = [.mark .comma].intercalate (ns.map numberTokens)) :
    Integers ls ns := by
  induction ns generalizing ls with
  | nil => exact absurd rfl hne
  | cons n ns ih =>
    cases ns with
    | nil =>
      rw [List.map_singleton, List.intercalate_singleton] at hl
      exact .one (integer_of_tokens (hle n List.mem_cons_self) hl)
    | cons m ms =>
      rw [List.map_cons, List.map_cons, List.intercalate_cons_cons, List.append_assoc] at hl
      obtain ⟨us, _, rfl, hu, hl⟩ := List.map_eq_append_iff.1 hl
      obtain ⟨c, vs, rfl, hc, hv⟩ := List.map_eq_cons_iff.1 hl
      refine .more (integer_of_tokens (hle n List.mem_cons_self) hu) hc (ih (by simp) ?_ hv)
      intro k hk
      exact hle k (List.mem_cons_of_mem _ hk)

theorem integers_bounded {ns : List Int} (h : Integers ts ns) :
    ns ≠ [] ∧ ∀ n ∈ ns, n.natAbs ≤ maxInteger := by
  induction h with
  | one h => simpa using natAbs_le_of_integer h
  | more h _ _ ih => exact ⟨by simp, by simpa using ⟨natAbs_le_of_integer h, ih.2⟩⟩

theorem integers_again {ns : List Int} (h : Integers ts ns)
    (hl : ls.map (·.token) = [.mark .comma].intercalate (ns.map numberTokens)) :
    Integers ls ns := by
  obtain ⟨hne, hle⟩ := integers_bounded h
  exact integers_of_tokens hne hle hl

theorem ofBits_bits (p : Pattern) : Pattern.ofBits p.bits = .ok p := by
  have hsteps : ∀ steps : List Bool,
      (steps.map fun s => if s then '1' else '0').mapM Pattern.ofBit = .ok steps := by
    intro steps
    induction steps with
    | nil => rfl
    | cons s steps ih =>
      rw [List.map_cons, List.mapM_cons, ih]
      cases s <;> rfl
  rw [Pattern.ofBits, Pattern.bits, hsteps]
  exact dif_pos ⟨p.length_pos, p.length_le⟩

theorem literal_again (hl : ls.map (·.token) = (Expr.literal p).tokens) (rest : List Lexeme) :
    Primary naming ls rest (.literal p) := by
  rw [tokens] at hl
  obtain ⟨l, rfl, ht⟩ := List.map_eq_singleton_iff.1 hl
  exact .binary ht (fun _ => mem_bits) (ofBits_bits p) .absent

theorem seed_toNat (h : Count ts k) : (UInt64.ofNat k).toNat = k := by
  have hle := natAbs_le_of_integer h.toInteger
  rw [Int.natAbs_natCast] at hle
  exact UInt64.toNat_ofNat_of_lt' (Nat.lt_of_le_of_lt hle (by decide))

theorem call_again (h : Call family ts make) (hl : ls.map (·.token) = (make span).tokens) :
    ∃ w us, ls = w :: us ∧ w.token = .word [family.letter] ∧ Starts .leftParen us ∧
      Call family us make := by
  cases h with
  | generator _ hns _ ht =>
    rw [tokens, List.cons_append, List.cons_append] at hl
    obtain ⟨w, _, rfl, hw, hl⟩ := List.map_eq_cons_iff.1 hl
    obtain ⟨l, _, rfl, hparen, hl⟩ := List.map_eq_cons_iff.1 hl
    obtain ⟨us, _, rfl, hu, hl⟩ := List.map_eq_append_iff.1 hl
    obtain ⟨r, rfl, hr⟩ := List.map_eq_singleton_iff.1 hl
    exact ⟨w, _, rfl, hw, starts_cons_iff.2 hparen,
      .generator hparen (integers_again hns hu) hr ht⟩
  | bell _ _ _ _ hn _ =>
    simp only [tokens, Option.map_none, Option.getD_none, List.append_nil, List.cons_append] at hl
    obtain ⟨w, _, rfl, hw, hl⟩ := List.map_eq_cons_iff.1 hl
    obtain ⟨l, _, rfl, hparen, hl⟩ := List.map_eq_cons_iff.1 hl
    obtain ⟨x, _, rfl, hx, hl⟩ := List.map_eq_cons_iff.1 hl
    obtain ⟨c, _, rfl, hc, hl⟩ := List.map_eq_cons_iff.1 hl
    obtain ⟨us, _, rfl, hu, hl⟩ := List.map_eq_append_iff.1 hl
    obtain ⟨r, rfl, hr⟩ := List.map_eq_singleton_iff.1 hl
    exact ⟨w, _, rfl, hw, starts_cons_iff.2 hparen,
      .bell hparen hx (by decide) hc (count_again hn hu) hr⟩
  | seededBell _ _ _ _ hn _ hs _ =>
    simp only [tokens, Option.map_some, Option.getD_some, seed_toNat hs, List.cons_append] at hl
    obtain ⟨w, _, rfl, hw, hl⟩ := List.map_eq_cons_iff.1 hl
    obtain ⟨l, _, rfl, hparen, hl⟩ := List.map_eq_cons_iff.1 hl
    obtain ⟨x, _, rfl, hx, hl⟩ := List.map_eq_cons_iff.1 hl
    obtain ⟨c, _, rfl, hc, hl⟩ := List.map_eq_cons_iff.1 hl
    obtain ⟨_, _, rfl, hl, hend⟩ := List.map_eq_append_iff.1 hl
    obtain ⟨us, _, rfl, hu, hl⟩ := List.map_eq_append_iff.1 hl
    obtain ⟨k, vs, rfl, hk, hv⟩ := List.map_eq_cons_iff.1 hl
    obtain ⟨r, rfl, hr⟩ := List.map_eq_singleton_iff.1 hend
    exact ⟨w, _, rfl, hw, starts_cons_iff.2 hparen,
      .seededBell hparen hx (by decide) hc (count_again hn hu) hk (count_again hs hv) hr⟩

/-- Tokens that are read as a term, whatever comes after them. Only a literal can make an offset of
a plus in front of it. -/
structure TermLike (ls : List Lexeme) (e : Expr) : Prop where
  opens (rest : List Lexeme) : Opens (ls ++ rest)
  offsets {rest : List Lexeme} (h : Offsets (ls ++ rest)) : (∃ p, e = .literal p) ∧ Closes rest
  term : ∃ e' : Expr, e'.unplaced = e.unplaced ∧ ∀ rest, Phrase.Term .anywhere ls rest e'

theorem not_offsets (hd : ∀ ds, l.token ≠ .digits ds) (hm : l.token ≠ .mark .minus) :
    ¬ Offsets (l :: ls) := by
  intro h
  cases h with
  | plain ht _ => exact hd _ ht
  | negative hs _ _ => exact hm hs

theorem termLike_literal (hl : ls.map (·.token) = (Expr.literal p).tokens) :
    TermLike ls (.literal p) := by
  have hread : ∀ rest, Primary .anywhere ls rest (.literal p) := literal_again hl
  rw [tokens] at hl
  obtain ⟨l, rfl, ht⟩ := List.map_eq_singleton_iff.1 hl
  refine ⟨fun _ => .digits ht, fun h => ⟨⟨p, rfl⟩, ?_⟩, _, rfl, fun rest => .primary (hread rest)⟩
  cases h with
  | plain _ hc => exact hc
  | negative hs _ _ =>
    rw [ht] at hs
    cases hs

theorem termLike_call (h : Call family ts make) (hl : ls.map (·.token) = (make span).tokens) :
    TermLike ls (make span) := by
  obtain ⟨w, us, rfl, hw, hparen, hcall⟩ := call_again h hl
  have hgreater : ∀ rest, ¬ Starts .greater (us ++ rest) := by
    intro rest
    cases hcall <;> simp_all [starts_cons_iff]
  refine ⟨fun rest => .word hw (hgreater rest), fun h => ?_, make (stretch (w :: us)), ?_,
    fun rest => .primary (.call hw (family.ofLetter?_letter) hcall)⟩
  · exact absurd h (not_offsets (by simp [hw]) (by simp [hw]))
  · cases h <;> rfl

theorem primary_again (h : Primary naming ts rest e) (hl : ls.map (·.token) = e.tokens) :
    TermLike ls e := by
  cases h with
  | binary | decimal | code | morse | onsets | preset => exact termLike_literal hl
  | call _ _ h => exact termLike_call h hl

theorem term_again (h : Phrase.Term naming ts rest e) (hl : ls.map (·.token) = e.tokens) :
    TermLike ls e := by
  induction h generalizing ls with
  | primary h => exact primary_again h hl
  | tilde _ _ ih | invert _ _ _ _ ih =>
    rw [tokens] at hl
    obtain ⟨l, us, rfl, ht, hu⟩ := List.map_eq_cons_iff.1 hl
    obtain ⟨-, -, e', he', hread⟩ := ih hu
    refine ⟨fun _ => .tilde ht, fun h => ?_, .invert e', ?_, fun rest => .tilde ht (hread rest)⟩
    · exact absurd h (not_offsets (by simp [ht]) (by simp [ht]))
    · rw [unplaced, unplaced, he']
  | reverse _ _ _ _ ih =>
    rw [tokens] at hl
    obtain ⟨l, us, rfl, ht, hu⟩ := List.map_eq_cons_iff.1 hl
    obtain ⟨hopens, -, e', he', hread⟩ := ih hu
    refine ⟨fun rest => .word ht ?_, fun h => ?_, .reverse e', ?_, fun rest => ?_⟩
    · exact opens_not_starts (hopens rest) (by decide) (by decide)
    · exact absurd h (not_offsets (by simp [ht]) (by simp [ht]))
    · rw [unplaced, unplaced, he']
    · exact .reverse ht (by decide) (hopens rest) (hread rest)

/-- Tokens that are read as a combo. After a plus and a literal there must be nothing that makes an
offset of them. -/
structure ComboLike (ls : List Lexeme) (e : Expr) : Prop where
  opens (rest : List Lexeme) : Opens (ls ++ rest)
  combo : ∃ e' : Expr, e'.unplaced = e.unplaced ∧
    ∀ rest, (e.AddsLiteral → ¬ Closes rest) → Phrase.Combo .anywhere ls rest e'

theorem not_closes_of_opens (h : Opens ls) : ¬ Closes ls := by
  intro hc
  cases hc with
  | nil => cases h
  | mark ht hm =>
    refine not_opens_of_mark ht ?_ ?_ h
    · rintro rfl
      exact absurd hm (by decide)
    · rintro rfl
      exact absurd hm (by decide)
  | transformer ht hg => cases h <;> simp_all

theorem not_closes_of_mark {m : Mark} (ht : l.token = .mark m)
    (hm : m ∉ [Mark.semicolon, .greater, .star, .at, .percent, .rightBrace]) :
    ¬ Closes (l :: ls) := by
  intro h
  cases h with
  | mark ht' hm' =>
    cases ht.symm.trans ht'
    exact hm hm'
  | transformer hw _ => cases ht.symm.trans hw

theorem combo_again (h : Phrase.Combo naming ts rest e) (hl : ls.map (·.token) = e.tokens) :
    ComboLike ls e := by
  induction h generalizing ls with
  | term h =>
    obtain ⟨hopens, -, e', he', hread⟩ := term_again h hl
    exact ⟨hopens, e', he', fun rest _ => .term (hread rest)⟩
  | @merge _ _ _ _ how left right _ _ hr ih =>
    rw [tokens] at hl
    obtain ⟨us, _, rfl, hu, hl⟩ := List.map_eq_append_iff.1 hl
    obtain ⟨s, vs, rfl, hs, hv⟩ := List.map_eq_cons_iff.1 hl
    obtain ⟨hopens, left', hleft, hcombo⟩ := ih hu
    obtain ⟨-, hoffsets, right', hright, hterm⟩ := term_again hr hv
    refine ⟨fun rest => ?_, .combination how left' right' (stretch (us ++ s :: vs)), ?_,
      fun rest hrest => .merge (hcombo _ fun _ => ?_) ?_ (hterm rest)⟩
    · rw [List.append_assoc]
      exact hopens _
    · rw [unplaced, unplaced, hleft, hright]
    · cases how
      · exact not_closes_of_mark hs (by decide)
      · exact not_closes_of_mark hs (by decide)
    · cases how with
      | subtract => exact .minus hs
      | add =>
        refine .plus hs fun ho => ?_
        obtain ⟨⟨p, rfl⟩, hcloses⟩ := hoffsets ho
        exact hrest ⟨left, p, _, rfl⟩ hcloses

/-- Wherever its tokens stand, they are read as a combo. -/
def ComboAgain (e : Expr) : Prop := ∀ ls : List Lexeme, ls.map (·.token) = e.tokens → ComboLike ls e

/-- Tokens that are read as a chain. -/
structure ChainLike (ls : List Lexeme) (e : Expr) : Prop where
  opens (rest : List Lexeme) : Opens (ls ++ rest)
  chain : ∃ e' : Expr, e'.unplaced = e.unplaced ∧
    ∀ rest, (e.lastCombo.AddsLiteral → ¬ Closes rest) → Phrase.Chain .anywhere ls rest e'

theorem combos_again (he : ∀ x ∈ e :: es, ComboAgain x)
    (hl : ls.map (·.token) = (tokensAll (e :: es)).flatten) :
    (∀ rest, Opens (ls ++ rest)) ∧ ∃ es' : List Expr, unplacedAll es' = unplacedAll (e :: es) ∧
      ∀ rest, (((e :: es).getLast (List.cons_ne_nil _ _)).AddsLiteral → ¬ Closes rest) →
        Phrase.Combos .anywhere ls rest es' := by
  induction es generalizing e ls with
  | nil =>
    obtain ⟨hopens, e', he', hread⟩ := he e List.mem_cons_self ls (by simpa [tokensAll] using hl)
    exact ⟨hopens, [e'], by simp only [unplacedAll, he'], fun rest h => .one (hread rest h)⟩
  | cons f es ih =>
    rw [tokensAll, List.flatten_cons] at hl
    obtain ⟨us, vs, rfl, hu, hv⟩ := List.map_eq_append_iff.1 hl
    obtain ⟨hopens, e', he', hread⟩ := he e List.mem_cons_self us hu
    obtain ⟨hopens', es', hes', hreads⟩ := ih (fun x hx => he x (List.mem_cons_of_mem _ hx)) hv
    refine ⟨fun rest => List.append_assoc us vs rest ▸ hopens _, e' :: es', ?_, fun rest h => ?_⟩
    · rw [unplacedAll, he', hes', ← unplacedAll]
    · rw [List.getLast_cons (List.cons_ne_nil _ _)] at h
      refine .more (hread _ fun _ => ?_) (hopens' rest) (hreads rest h)
      exact not_closes_of_opens (hopens' rest)

theorem chain_of_combos (he : ∀ x ∈ es, ComboAgain x) (hlen : 2 ≤ es.length)
    (hl : ls.map (·.token) = (Expr.chain es span).tokens) : ChainLike ls (.chain es span) := by
  obtain ⟨e, es, rfl⟩ := List.exists_cons_of_length_pos (l := es) (by omega)
  rw [tokens] at hl
  obtain ⟨hopens, es', hes', hread⟩ := combos_again he hl
  refine ⟨hopens, .chain es' (stretch ls), by rw [unplaced, unplaced, hes'], fun rest h => ?_⟩
  rw [lastCombo, List.getLast?_eq_some_getLast (List.cons_ne_nil _ _), Option.getD_some] at h
  have hlength := congrArg List.length hes'
  rw [unplacedAll_eq_map, unplacedAll_eq_map, List.length_map, List.length_map] at hlength
  exact .several (hread rest h) (hlength ▸ hlen)

theorem term_lastCombo (h : Phrase.Term naming ts rest e) : e.lastCombo = e := by
  cases h with
  | primary h =>
    cases h with
    | call _ _ h => cases h <;> rfl
    | _ => rfl
  | _ => rfl

theorem combo_lastCombo (h : Phrase.Combo naming ts rest e) : e.lastCombo = e := by
  cases h with
  | term h => exact term_lastCombo h
  | merge => rfl

theorem chain_of_combo (h : Phrase.Combo naming ts rest e) (hl : ls.map (·.token) = e.tokens) :
    ChainLike ls e := by
  obtain ⟨hopens, e', he', hread⟩ := combo_again h hl
  refine ⟨hopens, e', he', fun rest hrest => .one (hread rest ?_)⟩
  rwa [combo_lastCombo h] at hrest

theorem Phrase.Combos.mem (h : Phrase.Combos naming ts rest es) (he : e ∈ es) :
    ∃ us vs, Phrase.Combo naming us vs e := by
  induction h with
  | one h =>
    rw [List.mem_singleton.1 he]
    exact ⟨_, _, h⟩
  | more h _ _ ih =>
    rcases List.mem_cons.1 he with rfl | he
    · exact ⟨_, _, h⟩
    · exact ih he

theorem combos_all (h : Phrase.Combos naming ts rest es) : ∀ x ∈ es, ComboAgain x := by
  intro x hx
  obtain ⟨_, _, h⟩ := h.mem hx
  exact fun _ => combo_again h

theorem chain_again (h : Phrase.Chain naming ts rest e) (hl : ls.map (·.token) = e.tokens) :
    ChainLike ls e := by
  cases h with
  | one h => exact chain_of_combo h hl
  | several h hlen => exact chain_of_combos (combos_all h) hlen hl

theorem tail_again (h : Phrase.Tail ts t) (hl : ls.map (·.token) = t.tokens) :
    Phrase.Tail ls t := by
  cases h with
  | clockwise _ hn hpos hle =>
    obtain ⟨l, us, rfl, ht, hu⟩ := List.map_eq_cons_iff.1 hl
    exact .clockwise ht (count_again hn hu) hpos hle
  | counterclockwise _ _ hn hpos hle =>
    obtain ⟨l, _, rfl, ht, hl⟩ := List.map_eq_cons_iff.1 hl
    obtain ⟨s, us, rfl, hs, hu⟩ := List.map_eq_cons_iff.1 hl
    exact .counterclockwise ht hs (count_again hn hu) hpos hle
  | rotate _ hn =>
    obtain ⟨l, us, rfl, ht, hu⟩ := List.map_eq_cons_iff.1 hl
    exact .rotate ht (integer_again hn hu)
  | transform _ hn =>
    obtain ⟨l, us, rfl, ht, hu⟩ := List.map_eq_cons_iff.1 hl
    exact .transform ht (count_again hn hu)
  | @transformBy _ _ _ _ family _ _ _ htransformer _ hn =>
    obtain ⟨w, _, rfl, hw, hl⟩ := List.map_eq_cons_iff.1 hl
    obtain ⟨l, us, rfl, ht, hu⟩ := List.map_eq_cons_iff.1 hl
    exact .transformBy hw family.ofLetter?_letter htransformer ht (count_again hn hu)
  | lengthen _ hn =>
    obtain ⟨l, us, rfl, ht, hu⟩ := List.map_eq_cons_iff.1 hl
    exact .lengthen ht (count_again hn hu)
  | offset _ hn =>
    obtain ⟨l, us, rfl, ht, hu⟩ := List.map_eq_cons_iff.1 hl
    exact .offset (.inl ht) (integer_again hn hu)

/-- After any tail but an offset the integer before it ends an offset. -/
theorem closes_of_tail (more : List Token) (ht : ∀ n, t ≠ .evolve (.offset n))
    (hl : ls.map (·.token) = t.tokens ++ more) : Closes ls := by
  cases t with
  | quantize =>
    obtain ⟨l, us, rfl, hm, -⟩ := List.map_eq_cons_iff.1 hl
    exact .mark hm (by decide)
  | rotate =>
    obtain ⟨l, us, rfl, hm, -⟩ := List.map_eq_cons_iff.1 hl
    exact .mark hm (by decide)
  | evolve suffix =>
    cases suffix with
    | offset n => exact absurd rfl (ht n)
    | lengthen =>
      obtain ⟨l, us, rfl, hm, -⟩ := List.map_eq_cons_iff.1 hl
      exact .mark hm (by decide)
    | transform target family =>
      cases family with
      | none =>
        obtain ⟨l, us, rfl, hm, -⟩ := List.map_eq_cons_iff.1 hl
        exact .mark hm (by decide)
      | some family =>
        obtain ⟨w, _, rfl, hw, hl⟩ := List.map_eq_cons_iff.1 hl
        obtain ⟨l, us, rfl, hm, -⟩ := List.map_eq_cons_iff.1 hl
        exact .transformer hw (starts_cons_iff.2 hm)

theorem offsets_of_integer (hl : ls.map (·.token) = numberTokens n) (hc : Closes rest) :
    Offsets (ls ++ rest) := by
  unfold numberTokens at hl
  split at hl
  · obtain ⟨s, _, rfl, hs, hl⟩ := List.map_eq_cons_iff.1 hl
    obtain ⟨l, rfl, ht⟩ := List.map_eq_singleton_iff.1 hl
    exact .negative hs ht hc
  · obtain ⟨l, rfl, ht⟩ := List.map_eq_singleton_iff.1 hl
    exact .plain ht hc

/-- What may come after a body so that its chain is read as it was. -/
structure Joins (e : Expr) (rest : List Lexeme) : Prop where
  chain (h : e.firstTail? = none) : (e.core.lastCombo.AddsLiteral → ¬ Closes rest) ∧
    ∀ l ls, rest = l :: ls → l.token = .mark .plus → Offsets ls
  offset {n : Int} (h : e.firstTail? = some (.evolve (.offset n))) : Closes rest
  other {t : Rhythm.Notation.Tail} (h : e.firstTail? = some t)
    (ht : ∀ n, t ≠ .evolve (.offset n)) : ¬ e.core.lastCombo.AddsLiteral

theorem joins_nil (h : ¬ e.Absorbs) : Joins e [] where
  chain hf := by
    refine ⟨fun hadds => absurd ⟨hadds, fun n => ?_⟩ h, nofun⟩
    rw [hf]
    exact nofun
  offset _ := .nil
  other {t} hf ht hadds := by
    refine h ⟨hadds, fun n hn => ht n ?_⟩
    rw [hf] at hn
    exact Option.some.inj hn

/-- What may come after a body with one more tail may come with the tail after the body. -/
theorem Joins.tail {f : Expr} (h : Joins f rest) (hcore : f.core = e.core)
    (hfirst : f.firstTail? = some (e.firstTail?.getD t))
    (hone : ∀ m n, e.firstTail? = some (.evolve (.offset m)) → t ≠ .evolve (.offset n))
    (hl : us.map (·.token) = t.tokens) : Joins e (us ++ rest) := by
  have hcloses : (∀ n, t ≠ .evolve (.offset n)) → Closes (us ++ rest) := by
    intro ht
    refine closes_of_tail (rest.map (·.token)) ht ?_
    rw [List.map_append, hl]
  refine ⟨fun hn => ?_, fun hn => ?_, fun hn ht => ?_⟩
  · rw [hn, Option.getD_none] at hfirst
    by_cases hoffset : ∃ n, t = .evolve (.offset n)
    · obtain ⟨n, rfl⟩ := hoffset
      obtain ⟨l, vs, rfl, hm, hv⟩ := List.map_eq_cons_iff.1 hl
      refine ⟨fun _ => not_closes_of_mark hm (by decide), fun l' ls' heq _ => ?_⟩
      cases heq
      exact offsets_of_integer hv (h.offset hfirst)
    · have ht : ∀ n, t ≠ .evolve (.offset n) := fun n hn => hoffset ⟨n, hn⟩
      refine ⟨fun hadds => absurd (hcore ▸ hadds) (h.other hfirst ht), fun l ls heq hplus => ?_⟩
      have hc := hcloses ht
      rw [heq] at hc
      exact absurd hc (not_closes_of_mark hplus (by decide))
  · exact hcloses fun n => hone _ n hn
  · rw [hn, Option.getD_some] at hfirst
    exact hcore ▸ h.other hfirst ht

theorem Phrase.Term.isChain (h : Phrase.Term naming ts rest e) : e.IsChain := by
  induction h with
  | primary h =>
    cases h with
    | call _ _ h =>
      cases h with
      | generator _ _ _ ht => exact .generator ht
      | bell | seededBell => exact .bell
    | _ => exact .literal
  | tilde _ _ ih | invert _ _ _ _ ih => exact .invert ih
  | reverse _ _ _ _ ih => exact .reverse ih

theorem Phrase.Combo.isChain (h : Phrase.Combo naming ts rest e) : e.IsChain := by
  induction h with
  | term h => exact h.isChain
  | merge _ _ hr ih => exact .combination ih hr.isChain

theorem Phrase.Chain.isChain (h : Phrase.Chain naming ts rest e) : e.IsChain := by
  cases h with
  | one h => exact h.isChain
  | several h _ =>
    refine .chain fun x hx => ?_
    obtain ⟨_, _, h⟩ := h.mem hx
    exact h.isChain

/-- A body without a progressive tail has none as its first. -/
theorem firstTail?_ne_evolve (h : Phrase.Body naming ts rest b e) (hb : b = false)
    (suffix : Suffix) : e.firstTail? ≠ some (.evolve suffix) := by
  induction h with
  | chain h _ =>
    rw [firstTail?_of_isChain h.isChain]
    exact (Option.some_ne_none _).symm
  | @quantized _ _ _ _ e _ _ _ _ ih | @rotate _ _ _ _ e _ _ _ ih =>
    specialize ih hb
    rw [firstTail?]
    cases he : e.firstTail? with
    | none =>
      intro ht
      cases ht
    | some t => rwa [Option.getD_some, ← he]
  | progressive => cases hb

theorem body_again (h : Phrase.Body naming ts rest b e) (hl : ls.map (·.token) = e.tokens) :
    ∃ e' : Expr, e'.unplaced = e.unplaced ∧
      ∀ rest, Joins e rest → Phrase.Body .anywhere ls rest b e' := by
  induction h generalizing ls with
  | chain h _ =>
    obtain ⟨-, e', he', hread⟩ := chain_again h hl
    have hchain := h.isChain
    refine ⟨e', he', fun rest hrest => ?_⟩
    obtain ⟨hadds, hplus⟩ := hrest.chain (firstTail?_of_isChain hchain)
    rw [core_of_isChain hchain] at hadds
    exact .chain (hread rest hadds) hplus
  | quantized _ ht ih =>
    rw [tokens] at hl
    obtain ⟨us, vs, rfl, hu, hv⟩ := List.map_eq_append_iff.1 hl
    obtain ⟨e', he', hread⟩ := ih hu
    refine ⟨.quantized e' _ _ (stretch (us ++ vs)), by rw [unplaced, unplaced, he'],
      fun rest hrest => .quantized (hread _ ?_) (tail_again ht hv)⟩
    exact hrest.tail rfl rfl (fun _ _ _ ht => by cases ht) hv
  | rotate _ ht ih =>
    rw [tokens] at hl
    obtain ⟨us, vs, rfl, hu, hv⟩ := List.map_eq_append_iff.1 hl
    obtain ⟨e', he', hread⟩ := ih hu
    refine ⟨.rotate e' _, by rw [unplaced, unplaced, he'],
      fun rest hrest => .rotate (hread _ ?_) (tail_again ht hv)⟩
    exact hrest.tail rfl rfl (fun _ _ _ ht => by cases ht) hv
  | progressive h ht ih =>
    rw [tokens] at hl
    obtain ⟨us, vs, rfl, hu, hv⟩ := List.map_eq_append_iff.1 hl
    obtain ⟨e', he', hread⟩ := ih hu
    refine ⟨.progressive _ e', by rw [unplaced, unplaced, he'],
      fun rest hrest => .progressive (hread _ ?_) (tail_again ht hv)⟩
    exact hrest.tail rfl rfl (fun m _ hm => absurd hm (firstTail?_ne_evolve h rfl _)) hv

theorem segment_again (h : Phrase.Segment naming ts e) (hl : ls.map (·.token) = e.tokens)
    (ha : ¬ e.Absorbs) :
    ∃ e' : Expr, e'.unplaced = e.unplaced ∧ Phrase.Segment .anywhere ls e' := by
  cases h with
  | bare h =>
    obtain ⟨e', he', hread⟩ := body_again h hl
    exact ⟨e', he', .bare (hread [] (joins_nil ha))⟩
  | accented _ ht _ h =>
    rw [tokens, List.cons_append] at hl
    obtain ⟨l, _, rfl, hopen, hl⟩ := List.map_eq_cons_iff.1 hl
    obtain ⟨us, _, rfl, hu, hl⟩ := List.map_eq_append_iff.1 hl
    obtain ⟨r, vs, rfl, hclose, hv⟩ := List.map_eq_cons_iff.1 hl
    obtain ⟨-, -, a', ha', hterm⟩ := term_again ht hu
    obtain ⟨e', he', hread⟩ := body_again h hv
    exact ⟨.accented a' e', by rw [unplaced, unplaced, ha', he'],
      .accented hopen (hterm _) hclose (hread [] (joins_nil ha))⟩

end Rhythm.Notation
