import Rhythm.Proofs.Notation.Passage

/-! The smallest patterns are read just as the grammar has them. -/
namespace Rhythm.Notation

open Text Phrase Cursor

/-- Neither a length nor arguments come next. -/
structure Calm (ls : List Lexeme) : Prop where
  not_colon : ¬ Starts .colon ls
  not_paren : ¬ Starts .leftParen ls

variable {c d : Cursor} {ts : List Lexeme} {place : Span} {family : Family} {e : Expr}
  {make : Span → Expr}

theorem starts_cons_iff {m : Mark} {l : Lexeme} {ls : List Lexeme} :
    Starts m (l :: ls) ↔ l.token = .mark m := by
  simp [Starts]

theorem not_starts_nil {m : Mark} : ¬ Starts m [] := by simp [Starts]

theorem calm_nil : Calm [] := ⟨not_starts_nil, not_starts_nil⟩

theorem calm_of_mark {m : Mark} {l : Lexeme} {ls : List Lexeme} (hl : l.token = .mark m)
    (hc : m ≠ .colon) (hp : m ≠ .leftParen) : Calm (l :: ls) := by
  constructor <;> rw [starts_cons_iff, hl] <;> simpa

theorem integers_sound {ns : List (Int × Span)} (h : integers place c = .ok (ns, d)) :
    ∃ ts, c.Passes ts d ∧ Integers ts (ns.map (·.1)) := by
  fun_induction integers place c generalizing ns d with
  | case1 => cases h
  | case2 => cases h
  | case3 => cases h
  | case4 c _ n e he hcomma ns' d' hr ih =>
    cases h
    obtain ⟨ts, hp, hn⟩ := integer_sound he
    obtain ⟨l, ls, ha, hl⟩ := exists_of_at? hcomma
    obtain ⟨us, hp', hns⟩ := ih hr
    exact ⟨ts ++ l :: us, hp.trans (.cons ha hp'), .more hn hl hns⟩
  | case5 c _ n e he =>
    cases h
    obtain ⟨ts, hp, hn⟩ := integer_sound he
    exact ⟨ts, hp, .one hn⟩

theorem integer_ahead {n : Int} (hp : c.Passes ts d) (hn : Integer ts n) :
    c.ahead.isEmpty = false := by
  cases hn <;> rw [hp.head] <;> rfl

theorem integers_complete (place : Span) {ns : List Int} (hp : c.Passes ts d) (hns : Integers ts ns)
    (hd : ¬ Starts .comma d.ahead) :
    ∃ args, integers place c = .ok (args, d) ∧ args.map (·.1) = ns := by
  induction hns generalizing c with
  | one hn =>
    obtain ⟨s, hi⟩ := integer_complete hp hn
    refine ⟨[(_, s)], ?_, rfl⟩
    rw [integers, integer_ahead hp hn, if_neg Bool.false_ne_true]
    split
    · next he => cases hi.symm.trans he
    · next he =>
      cases hi.symm.trans he
      rw [at?_eq_false_iff.2 hd, if_neg Bool.false_ne_true]
  | more hn hc _ ih =>
    obtain ⟨b, hp, hp', -⟩ := hp.split
    obtain ⟨s, hi⟩ := integer_complete hp hn
    obtain ⟨args, hargs, hmap⟩ := ih hp'.tail
    refine ⟨(_, s) :: args, ?_, congrArg _ hmap⟩
    rw [integers, integer_ahead hp hn, if_neg Bool.false_ne_true]
    split
    · next he => cases hi.symm.trans he
    · next he =>
      cases hi.symm.trans he
      rw [hp'.at? hc, if_pos rfl, hargs]

theorem close_sound {opening closing : Mark} {what : Wanted}
    (h : c.close opening place closing what = .ok d) :
    ∃ r, c.Passes [r] d ∧ r.token = .mark closing := by
  unfold Cursor.close at h
  split at h
  · next hc =>
    cases h
    obtain ⟨r, ls, ha, hr⟩ := exists_of_at? hc
    exact ⟨r, passes_next ha, hr⟩
  · split at h <;> cases h

theorem close_complete {opening closing : Mark} {what : Wanted} {r : Lexeme}
    (hp : c.Passes [r] d) (hr : r.token = .mark closing) :
    c.close opening place closing what = .ok d := by
  rw [Cursor.close, if_pos (hp.at? hr), hp.tail.eq_of_nil]

/-- Arguments are none at all, or integers before the closing parenthesis. -/
theorem arguments_sound {args : List (Int × Span)} (h : arguments place c = .ok (args, d)) :
    args = [] ∨ ∃ ts r, c.Passes (ts ++ [r]) d ∧ Integers ts (args.map (·.1)) ∧
      r.token = .mark .rightParen := by
  unfold arguments at h
  split at h
  · cases h
    exact .inl rfl
  · simp only [bind_eq_ok, pure, Except.pure, Except.ok.injEq, Prod.mk.injEq] at h
    obtain ⟨⟨ns, b⟩, hns, d', hc, rfl, rfl⟩ := h
    obtain ⟨ts, hp, hi⟩ := integers_sound hns
    obtain ⟨r, hp', hr⟩ := close_sound hc
    exact .inr ⟨ts, r, hp.trans hp', hi, hr⟩

theorem integers_head {ns : List Int} (h : Integers ts ns) (rest : List Lexeme) (m : Mark)
    (hm : m ≠ .minus) : ¬ Starts m (ts ++ rest) := by
  have hint : ∀ us n, Integer us n → ∀ rest, ¬ Starts m (us ++ rest) := by
    intro us n hn rest
    cases hn with
    | plain ht _ => simp [starts_cons_iff, ht]
    | negative hs _ _ => simpa [starts_cons_iff, hs] using Ne.symm hm
  cases h with
  | one hn => exact hint _ _ hn rest
  | more hn _ _ =>
    rw [List.append_assoc]
    exact hint _ _ hn _

theorem arguments_complete (place : Span) {ns : List Int} {r : Lexeme} (hp : c.Passes (ts ++ [r]) d)
    (hns : Integers ts ns) (hr : r.token = .mark .rightParen) :
    ∃ args, arguments place c = .ok (args, d) ∧ args.map (·.1) = ns := by
  obtain ⟨b, hp, hp', ha⟩ := hp.split
  have hcomma : ¬ Starts .comma b.ahead := by
    rw [ha]
    simp [starts_cons_iff, hr]
  obtain ⟨args, hargs, hmap⟩ := integers_complete place hp hns hcomma
  refine ⟨args, ?_, hmap⟩
  have hparen : c.at? .rightParen = false := by
    rw [at?_eq_false_iff, hp.ahead]
    exact integers_head hns _ _ (by decide)
  rw [arguments, hparen, if_neg Bool.false_ne_true, hargs]
  change (Cursor.close b _ _ _ _ >>= _) = _
  rw [close_complete hp' hr]
  rfl

theorem call_eq_ok_iff {args : List (Int × Span)} : call family args place = .ok e ↔
    family.Takes (args.map (·.1)) ∧ e = .generator family (args.map (·.1)) place := by
  constructor
  · intro h
    obtain rfl : e = .generator family (args.map (·.1)) place := by
      unfold call at h
      dsimp only at h
      split at h
      · cases h
      · split at h
        · cases h
        · split at h
          · exact (Except.ok.inj h).symm
          · split at h
            · cases h
            · exact (Except.ok.inj h).symm
    cases call_isChain h with
    | generator ht => exact ⟨ht, rfl⟩
  · rintro ⟨ht, rfl⟩
    have hlen : ¬ ((args.map (·.1)).length < 2 ∨ family.maxArgs < (args.map (·.1)).length) := by
      have := ht.length_ge
      have := ht.length_le
      omega
    have hneg : args.zipIdx.find? (fun a => !family.signedArg a.2 && a.1.1 < 0) = none := by
      rw [List.find?_eq_none]
      rintro ⟨a, i⟩ ha
      have hget : (args.map (·.1))[i]? = some a.1 := by
        rw [List.getElem?_map, List.mem_zipIdx_iff_getElem?.1 ha]
        rfl
      cases hs : family.signedArg i with
      | true => simp
      | false => simpa [hs] using ht.nonneg i a.1 hget hs
    unfold call
    dsimp only
    rw [if_neg hlen, hneg]
    dsimp only
    split
    · rfl
    · next steps hsteps => rw [if_neg (Int.not_lt.2 (ht.onsets_le steps hsteps))]

/-- A call with `r` has a length, or a length and a seed, and neither is negative. -/
theorem bellCall_eq_ok_iff {args : List (Int × Span)} : bellCall args place = .ok e ↔
    (∃ steps : Int, args.map (·.1) = [steps] ∧ 0 ≤ steps ∧ e = .bell steps.toNat none place) ∨
    (∃ steps seed : Int, args.map (·.1) = [steps, seed] ∧ 0 ≤ steps ∧ 0 ≤ seed ∧
      e = .bell steps.toNat (some (.ofInt seed)) place) := by
  constructor
  · intro h
    unfold bellCall at h
    split at h
    · next hneg hargs =>
      cases h
      obtain ⟨a, rfl, rfl⟩ := List.map_eq_singleton_iff.1 hargs
      exact .inl ⟨a.1, rfl, by simpa using hneg, rfl⟩
    · next hneg hargs =>
      cases h
      obtain ⟨a, l, rfl, rfl, hl⟩ := List.map_eq_cons_iff.1 hargs
      obtain ⟨b, rfl, rfl⟩ := List.map_eq_singleton_iff.1 hl
      obtain ⟨ha, hb⟩ : 0 ≤ a.1 ∧ 0 ≤ b.1 := by simpa using hneg
      exact .inr ⟨a.1, b.1, rfl, ha, hb, rfl⟩
    · cases h
    · cases h
    · cases h
  · rintro (⟨steps, hargs, hs, rfl⟩ | ⟨steps, seed, hargs, hs, hseed, rfl⟩)
    · obtain ⟨a, rfl, rfl⟩ := List.map_eq_singleton_iff.1 hargs
      have hneg : [a].find? (fun a => decide (a.1 < 0)) = none := by simpa using hs
      rw [bellCall, hneg]
      rfl
    · obtain ⟨a, l, rfl, rfl, hl⟩ := List.map_eq_cons_iff.1 hargs
      obtain ⟨b, rfl, rfl⟩ := List.map_eq_singleton_iff.1 hl
      have hneg : [a, b].find? (fun a => decide (a.1 < 0)) = none := by simpa using ⟨hs, hseed⟩
      rw [bellCall, hneg]
      rfl

theorem exists_of_atBell (h : c.atBell = true) :
    ∃ l ls name, c.ahead = l :: ls ∧ l.token = .word name ∧ sameWord name ['r'] = true := by
  unfold Cursor.atBell at h
  split at h
  · next name ht =>
    obtain ⟨l, ls, ha, hl⟩ := exists_of_token? ht
    exact ⟨l, ls, name, ha, hl, h⟩
  · cases h

theorem afterBell_sound (h : c.afterBell = .ok d) :
    c.at? .rightParen = true ∧ d = c ∨ c.at? .comma = true ∧ d = c.next := by
  unfold Cursor.afterBell at h
  split at h
  · next hr =>
    cases h
    exact .inl ⟨hr, rfl⟩
  · split at h
    · next hc =>
      cases h
      exact .inr ⟨hc, rfl⟩
    · cases h

theorem ofInt_natCast (n : Nat) : UInt64.ofInt (n : Int) = .ofNat n := by
  apply UInt64.toNat_inj.1
  simp [UInt64.ofInt]
  omega

/-- Arguments after `r` that make a call are a length, or a length and a seed. -/
theorem bellCall_sound {l b k r : Lexeme} {name : List Char} {args : List (Int × Span)}
    (hl : l.token = .mark .leftParen) (hb : b.token = .word name)
    (hname : sameWord name ['r'] = true) (hk : k.token = .mark .comma)
    (hi : Integers ts (args.map (·.1))) (hr : r.token = .mark .rightParen)
    (h : bellCall args place = .ok e) :
    ∃ make, Call .random (l :: b :: k :: (ts ++ [r])) make ∧ e = make place := by
  rcases bellCall_eq_ok_iff.1 h with ⟨steps, hargs, hs, rfl⟩ | ⟨steps, seed, hargs, hs, hseed, rfl⟩
  · rw [hargs] at hi
    cases hi with
    | one hn => exact ⟨_, .bell hl hb hname hk (hn.toCount hs) hr, rfl⟩
    | more _ _ hns => cases hns
  · rw [hargs] at hi
    obtain ⟨m, rfl⟩ := Int.eq_ofNat_of_zero_le hseed
    cases hi with
    | more hn hc hns =>
      cases hns with
      | one hm =>
        rw [ofInt_natCast]
        exact ⟨_, .seededBell hl hb hname hk (hn.toCount hs) hc (hm.toCount hseed) hr, rfl⟩
      | more _ _ hns => cases hns

theorem generator_sound (hc : c.at? .leftParen = true)
    (h : generator family place c = .ok (e, d)) :
    ∃ ts make, c.Passes ts d ∧ Call family ts make ∧ e = make (d.since place) := by
  obtain ⟨l, ls, ha, hl⟩ := exists_of_at? hc
  unfold generator at h
  split at h
  · next hbell =>
    obtain ⟨rfl, hbell⟩ := hbell
    obtain ⟨b, ls', name, hab, hb, hname⟩ := exists_of_atBell hbell
    simp only [bind_eq_ok, pure, Except.pure, Except.ok.injEq, Prod.mk.injEq] at h
    obtain ⟨f, hf, ⟨args, g⟩, hargs, e', he, rfl, rfl⟩ := h
    rcases afterBell_sound hf with ⟨hr, rfl⟩ | ⟨hk, rfl⟩
    · -- without arguments there is no call
      rw [arguments, if_pos hr] at hargs
      cases hargs
      cases he
    · obtain ⟨k, ls'', hak, hk⟩ := exists_of_at? hk
      rcases arguments_sound hargs with rfl | ⟨ts, r, hp, hi, hr⟩
      · cases he
      · obtain ⟨make, hcall, rfl⟩ := bellCall_sound hl hb hname hk hi hr he
        exact ⟨_, make, .cons ha (.cons hab (.cons hak hp)), hcall, rfl⟩
  · simp only [bind_eq_ok, pure, Except.pure, Except.ok.injEq, Prod.mk.injEq] at h
    obtain ⟨⟨args, g⟩, hargs, e', he, rfl, rfl⟩ := h
    obtain ⟨ht, rfl⟩ := call_eq_ok_iff.1 he
    rcases arguments_sound hargs with rfl | ⟨ts, r, hp, hi, hr⟩
    · exact absurd ht.length_ge (by simp)
    · exact ⟨_, _, .cons ha hp, .generator hl hi hr ht, rfl⟩

theorem atBell_eq_false {n : Int} {us : List Lexeme} {e : Cursor} (hp : c.Passes (ts ++ us) e)
    (hn : Integer ts n) : c.atBell = false := by
  unfold Cursor.atBell
  cases hn with
  | plain ht _ => rw [hp.token?, ht]
  | negative hs _ _ => rw [hp.token?, hs]

theorem integers_first {ns : List Int} (h : Integers ts ns) :
    ∃ us vs n, ts = us ++ vs ∧ Integer us n := by
  cases h with
  | one hn => exact ⟨_, [], _, (List.append_nil _).symm, hn⟩
  | more hn _ _ => exact ⟨_, _, _, rfl, hn⟩

/-- After `r` and its comma a call is made of the arguments before the closing parenthesis. -/
theorem generator_bell (place : Span) {l b k r : Lexeme} {name : List Char} {ns : List Int}
    (hp : c.Passes (l :: b :: k :: (ts ++ [r])) d) (hb : b.token = .word name)
    (hname : sameWord name ['r'] = true) (hk : k.token = .mark .comma) (hns : Integers ts ns)
    (hr : r.token = .mark .rightParen) :
    ∃ args : List (Int × Span), args.map (·.1) = ns ∧
      generator .random place c = (bellCall args (d.since place)).map (·, d) := by
  obtain ⟨args, hargs, hmap⟩ := arguments_complete c.span hp.tail.tail.tail hns hr
  refine ⟨args, hmap, ?_⟩
  have hbell : c.next.atBell = true := by
    rw [Cursor.atBell, hp.tail.token?, hb]
    exact hname
  have hright : c.next.next.at? .rightParen = false :=
    at?_ne hp.tail.tail.head (by rw [hk]; decide)
  have hafter : c.next.next.afterBell = .ok c.next.next.next := by
    rw [Cursor.afterBell, hright, if_neg Bool.false_ne_true, if_pos (hp.tail.tail.at? hk)]
  rw [generator, if_pos ⟨rfl, hbell⟩, hafter]
  change (arguments c.span c.next.next.next >>= _) = _
  rw [hargs]
  change (bellCall args (d.since place) >>= _) = _
  cases bellCall args (d.since place) <;> rfl

theorem generator_complete (hp : c.Passes ts d) (hcall : Call family ts make) :
    generator family place c = .ok (make (d.since place), d) := by
  cases hcall with
  | @generator l r ts family ns hl hns hr ht =>
    obtain ⟨args, hargs, rfl⟩ := arguments_complete c.span hp.tail hns hr
    have hbell : c.next.atBell = false := by
      obtain ⟨us, vs, n, rfl, hn⟩ := integers_first hns
      have hp' := hp.tail
      rw [List.append_assoc] at hp'
      exact atBell_eq_false hp' hn
    rw [generator, if_neg (by simp [hbell]), hargs]
    change (call family args (d.since place) >>= _) = _
    rw [call_eq_ok_iff.2 ⟨ht, rfl⟩]
    rfl
  | bell hl hb hname hc hn hr =>
    obtain ⟨args, hmap, hg⟩ := generator_bell place hp hb hname hc (.one hn.toInteger) hr
    rw [hg, bellCall_eq_ok_iff.2 (.inl ⟨_, hmap, Int.natCast_nonneg _, rfl⟩)]
    rfl
  | seededBell hl hb hname hc hn hk hs hr =>
    obtain ⟨args, hmap, hg⟩ := generator_bell place hp hb hname hc
      (.more hn.toInteger hk (.one hs.toInteger)) hr
    rw [hg, bellCall_eq_ok_iff.2
      (.inr ⟨_, _, hmap, Int.natCast_nonneg _, Int.natCast_nonneg _, rfl⟩), ofInt_natCast]
    rfl

theorem positions_sound {ns : List (Nat × Span)} (h : positions place c = .ok (ns, d)) :
    ∃ ts r, c.Passes (ts ++ [r]) d ∧ Positions ts (ns.map (·.1)) ∧
      r.token = .mark .rightBracket := by
  fun_induction positions place c generalizing ns d with
  | case1 c hc =>
    cases h
    obtain ⟨r, ls, ha, hr⟩ := exists_of_at? hc
    exact ⟨[], r, passes_next ha, .none, hr⟩
  | case2 => cases h
  | case3 => cases h
  | case4 => cases h
  | case5 c _ _ n e he hcomma ns' d' hr ih =>
    cases h
    obtain ⟨ts, hp, hn⟩ := count_sound he
    obtain ⟨k, ls, ha, hk⟩ := exists_of_at? hcomma
    obtain ⟨us, r, hp', hns, hr⟩ := ih hr
    refine ⟨ts ++ k :: us, r, ?_, .more hn hk hns, hr⟩
    rw [List.append_assoc]
    exact hp.trans (.cons ha hp')
  | case6 c _ _ n e he _ hr =>
    cases h
    obtain ⟨ts, hp, hn⟩ := count_sound he
    obtain ⟨r, ls, ha, hr⟩ := exists_of_at? hr
    exact ⟨ts, r, hp.trans (passes_next ha), .one hn, hr⟩
  | case7 => cases h

theorem count_ahead {n : Nat} (us : List Lexeme) (hn : Count ts n) :
    ¬ Starts .rightBracket (ts ++ us) ∧ (ts ++ us).isEmpty = false := by
  cases hn with
  | plain ht _ => simp [starts_cons_iff, ht]
  | nought hs _ _ => simp [starts_cons_iff, hs]

theorem positions_complete (place : Span) {ns : List Nat} {r : Lexeme} (hp : c.Passes (ts ++ [r]) d)
    (hns : Positions ts ns) (hr : r.token = .mark .rightBracket) :
    ∃ entries, positions place c = .ok (entries, d) ∧ entries.map (·.1) = ns := by
  induction hns generalizing c with
  | none =>
    refine ⟨[], ?_, rfl⟩
    rw [positions, if_pos (hp.at? hr), hp.tail.eq_of_nil]
  | @one ts n hn =>
    obtain ⟨b, hp', hq, -⟩ := hp.split
    obtain ⟨s, hcount⟩ := count_complete hp' hn
    obtain ⟨hbracket, hempty⟩ := count_ahead b.ahead hn
    refine ⟨[(n, s)], ?_, rfl⟩
    rw [positions, at?_eq_false_iff.2 (hp'.ahead ▸ hbracket), if_neg Bool.false_ne_true,
      hp'.ahead, hempty, if_neg Bool.false_ne_true]
    split
    · next he => cases hcount.symm.trans he
    · next he =>
      cases hcount.symm.trans he
      rw [at?_ne hq.head (by rw [hr]; decide), if_neg Bool.false_ne_true, if_pos (hq.at? hr),
        hq.tail.eq_of_nil]
  | @more ts us k n ns hn hk _ ih =>
    rw [List.append_assoc] at hp
    obtain ⟨b, hp', hq, -⟩ := hp.split
    obtain ⟨s, hcount⟩ := count_complete hp' hn
    obtain ⟨hbracket, hempty⟩ := count_ahead b.ahead hn
    obtain ⟨entries, hentries, hmap⟩ := ih hq.tail
    refine ⟨(n, s) :: entries, ?_, congrArg _ hmap⟩
    rw [positions, at?_eq_false_iff.2 (hp'.ahead ▸ hbracket), if_neg Bool.false_ne_true,
      hp'.ahead, hempty, if_neg Bool.false_ne_true]
    split
    · next he => cases hcount.symm.trans he
    · next he =>
      cases hcount.symm.trans he
      rw [hq.at? hk, if_pos rfl, hentries]

theorem placed_eq_ok_iff {α : Type} {x : Except PatternError α} {a : α} :
    placed place x = .ok a ↔ x = .ok a := by
  cases x <;> simp [placed]

variable {ds : List Char} {l : Lexeme} {ls rest : List Lexeme} {naming : Naming}

theorem onsetList_sound (hc : c.at? .leftBracket = true) (h : onsetList c = .ok (e, d)) :
    ∃ ts, c.Passes ts d ∧ Primary naming ts d.ahead e := by
  obtain ⟨l, ls, ha, hl⟩ := exists_of_at? hc
  simp only [onsetList, bind_eq_ok] at h
  obtain ⟨⟨entries, f⟩, hf, ⟨n?, g⟩, hg, h⟩ := h
  obtain ⟨ts, r, hp, hns, hr⟩ := positions_sound hf
  obtain ⟨us, hp', hn⟩ := length?_sound hg
  have hlen : clampSteps (n?.getD ((entries.map (·.1 + 1)).foldl max 8)) =
      onsetLength (entries.map (·.1)) n? := by
    rw [onsetLength, List.map_map]
    rfl
  dsimp only at h
  split at h
  · cases h
  · next hfind =>
    cases h
    refine ⟨_, .cons ha (hp.trans hp'), ?_⟩
    rw [hlen] at hfind ⊢
    rw [List.append_assoc]
    refine .onsets hl hns hr hn ?_
    intro n hn
    obtain ⟨entry, hentry, rfl⟩ := List.mem_map.1 hn
    simpa using List.find?_eq_none.1 hfind entry hentry

theorem numeral_sound {radix : Radix} (ha : c.ahead = l :: ls)
    (h : numeral radix ds c = .ok (e, d)) :
    ∃ ts n? p, c.Passes (l :: ts) d ∧ Length ts n? ∧ decode radix ds n? = .ok p ∧
      e = .literal p := by
  simp only [numeral, bind_eq_ok, pure, Except.pure, Except.ok.injEq, Prod.mk.injEq] at h
  obtain ⟨⟨n?, f⟩, hn, p, hp, rfl, rfl⟩ := h
  obtain ⟨ts, hpass, hn⟩ := length?_sound hn
  exact ⟨ts, n?, p, .cons ha hpass, hn, placed_eq_ok_iff.1 hp, rfl⟩

theorem binary_sound (ha : c.ahead = l :: ls) (h : binary ds c = .ok (e, d)) :
    ∃ ts n? p, c.Passes (l :: ts) d ∧ Length ts n? ∧ Pattern.ofBits ds = .ok p ∧
      e = .literal ((n?.map p.resize).getD p) := by
  simp only [binary, bind_eq_ok, pure, Except.pure, Except.ok.injEq, Prod.mk.injEq] at h
  obtain ⟨p, hp, ⟨n?, f⟩, hn, rfl, rfl⟩ := h
  obtain ⟨ts, hpass, hn⟩ := length?_sound hn
  exact ⟨ts, n?, p, .cons ha hpass, hn, placed_eq_ok_iff.1 hp, rfl⟩

theorem named_sound {name : List Char} (ha : c.ahead = l :: ls) (hl : l.token = .word name)
    (h : named name c = .ok (e, d)) : ∃ ts, c.Passes ts d ∧ Primary .anywhere ts d.ahead e := by
  unfold named at h
  split at h
  · next hparen =>
    split at h
    · next family hf =>
      obtain ⟨ts, make, hp, hcall, rfl⟩ := generator_sound hparen h
      refine ⟨l :: ts, .cons ha hp, ?_⟩
      rw [(Passes.cons ha hp).since]
      exact .call hl hf hcall
    · cases h
  · split at h
    · next p hp =>
      cases h
      exact ⟨[l], passes_next ha, .preset hl hp trivial⟩
    · cases h

theorem primary_sound (h : primary c = .ok (e, d)) :
    ∃ ts, c.Passes ts d ∧ Primary .anywhere ts d.ahead e := by
  unfold primary at h
  split at h
  · next ds ht =>
    obtain ⟨l, ls, ha, hl⟩ := exists_of_token? ht
    split at h
    · next hd =>
      obtain ⟨ts, n?, p, hpass, hn, hp, rfl⟩ := binary_sound ha h
      exact ⟨_, hpass, .binary hl (by simpa using hd) hp hn⟩
    · next hd =>
      obtain ⟨ts, n?, p, hpass, hn, hp, rfl⟩ := numeral_sound ha h
      exact ⟨_, hpass, .decimal hl (by simpa using hd) hn hp⟩
  · next radix ds ht =>
    obtain ⟨l, ls, ha, hl⟩ := exists_of_token? ht
    obtain ⟨ts, n?, p, hpass, hn, hp, rfl⟩ := numeral_sound ha h
    exact ⟨_, hpass, .code hl hn hp⟩
  · next text ht =>
    obtain ⟨l, ls, ha, hl⟩ := exists_of_token? ht
    split at h
    · next p hp =>
      cases h
      exact ⟨[l], passes_next ha, .morse hl (placed_eq_ok_iff.1 hp)⟩
    · cases h
  · next ht =>
    obtain ⟨l, ls, ha, hl⟩ := exists_of_token? ht
    exact onsetList_sound (at?_of_ahead ha hl) h
  · next name ht =>
    obtain ⟨l, ls, ha, hl⟩ := exists_of_token? ht
    exact named_sound ha hl h
  · cases h
  · cases h

theorem onsetList_complete {r : Lexeme} {us : List Lexeme} {ns : List Nat} {n? : Option Nat}
    (hp : c.Passes (l :: (ts ++ r :: us)) d) (hns : Positions ts ns)
    (hr : r.token = .mark .rightBracket) (hn : Length us n?)
    (hlt : ∀ n ∈ ns, n < onsetLength ns n?) (hd : ¬ Starts .colon d.ahead) :
    onsetList c = .ok (.literal (.ofOnsets ns (onsetLength ns n?)), d) := by
  have hp' := hp.tail
  rw [List.append_cons] at hp'
  obtain ⟨f, hpos, hlen, -⟩ := hp'.split
  obtain ⟨entries, hentries, rfl⟩ := positions_complete c.span hpos hns hr
  have hlength : clampSteps (n?.getD ((entries.map (·.1 + 1)).foldl max 8)) =
      onsetLength (entries.map (·.1)) n? := by
    rw [onsetLength, List.map_map]
    rfl
  have hfind : entries.find? (fun entry =>
      decide (onsetLength (entries.map (·.1)) n? ≤ entry.1)) = none := by
    rw [List.find?_eq_none]
    intro entry hentry
    simpa using hlt entry.1 (List.mem_map_of_mem hentry)
  rw [onsetList, hentries]
  change (length? f >>= _) = _
  rw [length?_complete hlen hn hd]
  simp only [bind, Except.bind, hlength, hfind, pure, Except.pure]

theorem numeral_complete {radix : Radix} {n? : Option Nat} {p : Pattern}
    (hp : c.Passes (l :: ts) d) (hn : Length ts n?) (hdec : decode radix ds n? = .ok p)
    (hd : ¬ Starts .colon d.ahead) : numeral radix ds c = .ok (.literal p, d) := by
  rw [numeral, length?_complete hp.tail hn hd]
  change (placed c.span (decode radix ds n?) >>= _) = _
  rw [hdec]
  rfl

theorem binary_complete {n? : Option Nat} {p : Pattern} (hp : c.Passes (l :: ts) d)
    (hn : Length ts n?) (hbits : Pattern.ofBits ds = .ok p) (hd : ¬ Starts .colon d.ahead) :
    binary ds c = .ok (.literal ((n?.map p.resize).getD p), d) := by
  rw [binary, hbits]
  change (length? c.next >>= _) = _
  rw [length?_complete hp.tail hn hd]
  rfl

theorem call_starts (h : Call family ts make) (rest : List Lexeme) :
    Starts .leftParen (ts ++ rest) := by
  cases h with
  | generator hl => exact starts_cons_iff.2 hl
  | bell hl => exact starts_cons_iff.2 hl
  | seededBell hl => exact starts_cons_iff.2 hl

/-- What the grammar has as a pattern is read as it, unless it could go on. -/
theorem primary_complete (hp : c.Passes ts d) (h : Primary naming ts d.ahead e)
    (hd : Calm d.ahead) : primary c = .ok (e, d) := by
  cases h with
  | binary hl hbits hpat hn =>
    rw [primary, hp.token?, hl]
    dsimp only
    rw [if_pos (by simpa using hbits)]
    exact binary_complete hp hn hpat hd.not_colon
  | decimal hl hbits hn hdec =>
    rw [primary, hp.token?, hl]
    dsimp only
    rw [if_neg (by simpa using hbits)]
    exact numeral_complete hp hn hdec hd.not_colon
  | code hl hn hdec =>
    rw [primary, hp.token?, hl]
    exact numeral_complete hp hn hdec hd.not_colon
  | morse hl hpat =>
    rw [primary, hp.token?, hl]
    dsimp only
    rw [hpat, hp.tail.eq_of_nil]
    rfl
  | onsets hl hns hr hn hlt =>
    rw [primary, hp.token?, hl]
    exact onsetList_complete hp hns hr hn hlt hd.not_colon
  | call hl hf hcall =>
    have hparen : c.next.at? .leftParen = true := by
      rw [at?_iff, hp.tail.ahead]
      exact call_starts hcall _
    rw [primary, hp.token?, hl]
    dsimp only
    rw [named, if_pos hparen, hf]
    dsimp only
    rw [generator_complete hp.tail hcall, hp.since]
  | preset hl hpat _ =>
    have hnext : c.next = d := hp.tail.eq_of_nil.symm
    rw [primary, hp.token?, hl]
    dsimp only
    rw [named, hnext, at?_eq_false_iff.2 hd.not_paren, if_neg Bool.false_ne_true, hpat]

end Rhythm.Notation
