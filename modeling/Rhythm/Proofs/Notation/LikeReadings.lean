import Rhythm.Proofs.Notation.LetterCase
import Rhythm.Proofs.Notation.Likeness
import Rhythm.Proofs.Notation.Segments

/-! Texts whose tokens match one by one are read alike: as expressions that match, or with faults of
one kind. -/
namespace Rhythm.Notation

open Text

variable {α β : Type} {A : Alignment} {c c' : Cursor} {place place' : Span}

theorem integer_likewise (h : c.Matches A c') :
    Likewise A (Onward A (SameAt A)) (integer c) (integer c') := by
  have hd : (if c.at? .minus then c.next else c).Matches A
      (if c.at? .minus then c'.next else c') := by
    split
    · exact h.next
    · exact h
  unfold integer
  rw [← h.at? .minus]
  dsimp only
  generalize (if c.at? .minus then c.next else c) = d at hd
  generalize (if c.at? .minus then c'.next else c') = d' at hd
  obtain ⟨ht, ht'⟩ | ⟨t, t', ht, ht', hm⟩ := hd.token?
  · rw [ht, ht']
    exact hd.unexpected .integer
  · rw [ht, ht']
    cases hm with
    | digits ds =>
      dsimp only
      split
      · exact ⟨⟨rfl, A.join h.span hd.span⟩, hd.next⟩
      · exact ⟨rfl, A.join h.span hd.span⟩
    | _ => exact hd.unexpected .integer

theorem count_eq : count c = integer c >>= fun r =>
    if r.1.1 < 0 then .error ⟨.negativeCount r.1.1, r.1.2⟩
    else .ok ((r.1.1.toNat, r.1.2), r.2) := by
  unfold count
  cases integer c <;> rfl

theorem count_likewise (h : c.Matches A c') :
    Likewise A (Onward A (SameAt A)) (count c) (count c') := by
  rw [count_eq, count_eq]
  refine (integer_likewise h).onward ?_
  rintro ⟨n, s⟩ ⟨n', s'⟩ d d' - ⟨hn, hs⟩ hd
  obtain rfl : n = n' := hn
  dsimp only
  split
  · exact ⟨rfl, hs⟩
  · exact ⟨⟨rfl, hs⟩, hd⟩

theorem length?_likewise (h : c.Matches A c') :
    Likewise A (Onward A Eq) (length? c) (length? c') := by
  have heq : ∀ c : Cursor, length? c =
      if c.at? .colon then count c.next >>= fun r => .ok (some r.1.1, r.2) else .ok (none, c) := by
    intro c
    unfold length?
    cases count c.next <;> rfl
  rw [heq, heq, h.at? .colon]
  split
  · refine (count_likewise h.next).onward ?_
    rintro ⟨n, s⟩ ⟨n', s'⟩ d d' - ⟨hn, -⟩ hd
    exact ⟨congrArg some hn, hd⟩
  · exact ⟨rfl, h⟩

theorem integers_likewise (h : c.Matches A c') (hp : A.Aligned place place') :
    Likewise A (Onward A (List.Forall₂ (SameAt A))) (integers place c) (integers place' c') := by
  induction hs : c.size using Nat.strongRecOn generalizing c c' with
  | ind s ih =>
    subst hs
    rw [integers_eq, integers_eq, h.isEmpty]
    split
    · exact ⟨rfl, hp⟩
    refine (integer_likewise h).onward ?_
    intro k k' d d' hk hkk hd
    dsimp only
    rw [hd.at? .comma]
    split
    · have hsize := Nat.lt_of_le_of_lt d.size_next_le (integer_size hk)
      refine (ih _ hsize hd.next rfl).onward ?_
      intro ks ks' e e' _ hks he
      exact ⟨.cons hkk hks, he⟩
    · exact ⟨.cons hkk .nil, hd⟩

theorem arguments_likewise (h : c.Matches A c') (hp : A.Aligned place place') :
    Likewise A (Onward A (List.Forall₂ (SameAt A))) (arguments place c) (arguments place' c') := by
  unfold arguments
  rw [h.at? .rightParen]
  split
  · exact ⟨.nil, h.next⟩
  refine (integers_likewise h hp).onward ?_
  intro args args' d d' _ hargs hd
  refine (hd.close hp .leftParen .rightParen .commaOrParen).bind ?_
  intro e e' _ he
  exact ⟨hargs, he⟩

section Calls

variable {args args' : List (Int × Span)}

theorem call_likewise (family : Family) (hargs : List.Forall₂ (SameAt A) args args')
    (hp : A.Aligned place place') :
    Likewise A (Expr.Matches A) (call family args place) (call family args' place') := by
  have hfind := forall₂_find? (forall₂_zipIdx hargs 0)
    (p := fun a => !family.signedArg a.2 && a.1.1 < 0)
    (q := fun a => !family.signedArg a.2 && a.1.1 < 0) ?_
  · unfold call
    rw [map_fst_of_sameAt hargs]
    dsimp only
    split
    · exact ⟨rfl, hp⟩
    obtain ⟨hn, hn'⟩ | ⟨a, a', ha, ha', hm⟩ := hfind
    · rw [hn, hn']
      dsimp only
      split
      · exact .generator _ _ hp
      split
      · exact ⟨rfl, hp⟩
      · exact .generator _ _ hp
    · rw [ha, ha']
      exact ⟨rfl, hm.1.2⟩
  · rintro ⟨⟨n, s⟩, i⟩ ⟨⟨n', s'⟩, i'⟩ ⟨⟨hn, -⟩, hi⟩
    obtain rfl : n = n' := hn
    obtain rfl : i = i' := hi
    rfl

theorem bellCall_likewise (hargs : List.Forall₂ (SameAt A) args args')
    (hp : A.Aligned place place') :
    Likewise A (Expr.Matches A) (bellCall args place) (bellCall args' place') := by
  have hfind := forall₂_find? hargs (p := fun a => decide (a.1 < 0))
    (q := fun a => decide (a.1 < 0)) ?_
  · unfold bellCall
    rw [map_fst_of_sameAt hargs]
    generalize args'.map (·.1) = values
    obtain ⟨hn, hn'⟩ | ⟨a, a', ha, ha', hm⟩ := hfind
    · rw [hn, hn']
      rcases values with _ | ⟨_, _ | ⟨_, _ | ⟨_, _⟩⟩⟩
      · exact ⟨rfl, hp⟩
      · exact .bell _ _ hp
      · exact .bell _ _ hp
      · exact ⟨rfl, hp⟩
    · rw [ha, ha']
      rcases values with _ | ⟨_, _ | ⟨_, _ | ⟨_, _⟩⟩⟩
      · exact ⟨rfl, hp⟩
      · exact ⟨rfl, hm.2⟩
      · exact ⟨rfl, hm.2⟩
      · exact ⟨rfl, hp⟩
  · rintro ⟨n, s⟩ ⟨n', s'⟩ ⟨hn, -⟩
    obtain rfl : n = n' := hn
    rfl

end Calls

theorem generator_likewise (family : Family) (h : c.Matches A c')
    (hp : A.Aligned place place') : Likewise A (Onward A (Expr.Matches A))
      (generator family place c) (generator family place' c') := by
  unfold generator
  rw [h.next.atBell]
  split
  · refine h.next.next.afterBell.bind ?_
    intro d d' _ hd
    refine (arguments_likewise hd h.span).onward ?_
    intro args args' e e' _ hargs he
    refine (bellCall_likewise hargs (he.since hp)).bind ?_
    intro x x' _ hx
    exact ⟨hx, he⟩
  · refine (arguments_likewise h.next h.span).onward ?_
    intro args args' e e' _ hargs he
    refine (call_likewise family hargs (he.since hp)).bind ?_
    intro x x' _ hx
    exact ⟨hx, he⟩

theorem positions_likewise (h : c.Matches A c') (hp : A.Aligned place place') :
    Likewise A (Onward A (List.Forall₂ (SameAt A))) (positions place c) (positions place' c') := by
  induction hs : c.size using Nat.strongRecOn generalizing c c' with
  | ind s ih =>
    subst hs
    rw [positions_eq, positions_eq, h.at? .rightBracket, h.isEmpty]
    split
    · exact ⟨.nil, h.next⟩
    split
    · exact ⟨rfl, hp⟩
    refine (count_likewise h).onward ?_
    intro k k' d d' hk hkk hd
    dsimp only
    rw [hd.at? .comma, hd.at? .rightBracket]
    split
    · have hsize := Nat.lt_of_le_of_lt d.size_next_le (count_size hk)
      refine (ih _ hsize hd.next rfl).onward ?_
      intro ks ks' e e' _ hks he
      exact ⟨.cons hkk hks, he⟩
    split
    · exact ⟨.cons hkk .nil, hd.next⟩
    · exact hd.unexpected .commaOrBracket

theorem onsetList_likewise (h : c.Matches A c') :
    Likewise A (Onward A (Expr.Matches A)) (onsetList c) (onsetList c') := by
  unfold onsetList
  refine (positions_likewise h.next h.span).onward ?_
  intro entries entries' d d' _ hentries hd
  have hvalues := map_fst_of_sameAt hentries
  have hleast : entries.map (·.1 + 1) = entries'.map (·.1 + 1) := by
    have := congrArg (List.map (· + 1)) hvalues
    rwa [List.map_map, List.map_map] at this
  dsimp only
  rw [hvalues, hleast]
  refine (length?_likewise hd).onward ?_
  rintro steps _ e e' - rfl he
  dsimp only
  generalize clampSteps (steps.getD ((entries'.map (·.1 + 1)).foldl max 8)) = n
  have hfind := forall₂_find? hentries (p := fun entry => decide (n ≤ entry.1))
    (q := fun entry => decide (n ≤ entry.1)) (fun x y hxy => by rw [hxy.1])
  obtain ⟨hn, hn'⟩ | ⟨a, a', ha, ha', hm⟩ := hfind
  · rw [hn, hn']
    exact ⟨.literal _, he⟩
  · rw [ha, ha']
    exact ⟨rfl, hm.2⟩

theorem placed_likewise {x x' : Except PatternError α} (hp : A.Aligned place place')
    (hx : x.mapError patternKind = x'.mapError patternKind) :
    Likewise A Eq (placed place x) (placed place' x') := by
  cases x with
  | ok a =>
    cases x' with
    | ok a' => exact Except.ok.inj hx
    | error e' => cases hx
  | error e =>
    cases x' with
    | ok a' => cases hx
    | error e' => exact ⟨Except.error.inj hx, hp⟩

theorem numeral_likewise (radix : Radix) {ds ds' : List Char} (hds : SameLetters ds ds')
    (h : c.Matches A c') :
    Likewise A (Onward A (Expr.Matches A)) (numeral radix ds c) (numeral radix ds' c') := by
  unfold numeral
  refine (length?_likewise h.next).onward ?_
  rintro steps _ d d' - rfl hd
  refine (placed_likewise h.span (decode_kind hds steps)).bind ?_
  rintro p _ - rfl
  exact ⟨.literal p, hd⟩

theorem binary_likewise (ds : List Char) (h : c.Matches A c') :
    Likewise A (Onward A (Expr.Matches A)) (binary ds c) (binary ds c') := by
  unfold binary
  refine (placed_likewise h.span rfl).bind ?_
  rintro p _ - rfl
  refine (length?_likewise h.next).onward ?_
  rintro steps _ d d' - rfl hd
  exact ⟨.literal _, hd⟩

theorem named_likewise {name name' : List Char} (hname : SameLetters name name')
    (h : c.Matches A c') :
    Likewise A (Onward A (Expr.Matches A)) (named name c) (named name' c') := by
  unfold named
  rw [h.next.at? .leftParen, ofName?_eq hname, preset?_eq hname]
  split
  · cases Family.ofName? name' with
    | some family => exact generator_likewise family h.next h.span
    | none => exact h.fail rfl
  · cases preset? name' with
    | some p => exact ⟨.literal p, h.next⟩
    | none => exact h.fail rfl

theorem primary_likewise (h : c.Matches A c') :
    Likewise A (Onward A (Expr.Matches A)) (primary c) (primary c') := by
  unfold primary
  obtain ⟨ht, ht'⟩ | ⟨t, t', ht, ht', hm⟩ := h.token?
  · rw [ht, ht']
    exact h.fail rfl
  rw [ht, ht']
  cases hm with
  | word hs => exact named_likewise hs h
  | digits ds =>
    dsimp only
    split
    · exact binary_likewise ds h
    · exact numeral_likewise .decimal (.refl ds) h
  | code radix hs => exact numeral_likewise radix hs h
  | @morse text text' hs =>
    dsimp only
    have hplaced := placed_likewise (A := A) h.span
      (congrArg (Except.mapError patternKind) (morse_eq hs))
    obtain ⟨e, e', he, he', hm⟩ | ⟨p, _, hp, hp', rfl⟩ := hplaced.elim
    · rw [he, he']
      exact hm
    · rw [hp, hp']
      exact ⟨.literal p, h.next⟩
  | mark m =>
    cases m with
    | leftBracket => exact onsetList_likewise h
    | _ => exact h.unexpected .pattern

theorem matches_operator {f : Expr → Expr} (hf : c.operator? = some f) {e e' : Expr}
    (he : e.Matches A e') : (f e).Matches A (f e') := by
  unfold Cursor.operator? at hf
  split at hf
  · cases hf
    exact .invert he
  · split at hf
    · cases hf
    split at hf
    · cases hf
      exact .reverse he
    split at hf
    · cases hf
      exact .invert he
    · cases hf
  · cases hf

theorem term_likewise (h : c.Matches A c') :
    Likewise A (Onward A (Expr.Matches A)) (term c) (term c') := by
  induction hs : c.size using Nat.strongRecOn generalizing c c' with
  | ind s ih =>
    subst hs
    rw [term_eq c, term_eq c', ← h.operator?]
    cases hf : c.operator? with
    | none => exact primary_likewise h
    | some f =>
      refine (ih _ (operator?_size hf) h.next rfl).onward ?_
      intro e e' d d' _ he hd
      exact ⟨matches_operator hf he, hd⟩

theorem merges_likewise {left left' : Expr} (hleft : left.Matches A left')
    (h : c.Matches A c') (hp : A.Aligned place place') :
    Likewise A (Onward A (Expr.Matches A)) (merges place left c) (merges place' left' c') := by
  induction hs : c.size using Nat.strongRecOn generalizing c c' left left' with
  | ind s ih =>
    subst hs
    rw [merges_eq c, merges_eq c', ← h.mergeSign?]
    cases hm : c.mergeSign? with
    | none => exact ⟨hleft, h⟩
    | some how =>
      refine (term_likewise h.next).onward ?_
      intro right right' d d' ht hright hd
      have hsize := Nat.lt_trans (term_size ht) (mergeSign?_size hm)
      exact ih _ hsize (.combination how hleft hright (hd.since hp)) hd rfl

theorem combo_likewise (h : c.Matches A c') :
    Likewise A (Onward A (Expr.Matches A)) (combo c) (combo c') := by
  have heq : ∀ c : Cursor, combo c = term c >>= fun r => merges c.span r.1 r.2 := by
    intro c
    unfold combo
    cases term c <;> rfl
  rw [heq, heq]
  refine (term_likewise h).onward ?_
  intro left left' d d' _ hleft hd
  exact merges_likewise hleft hd h.span

theorem combos_likewise (h : c.Matches A c') :
    Likewise A (Onward A (List.Forall₂ (Expr.Matches A))) (combos c) (combos c') := by
  induction hs : c.size using Nat.strongRecOn generalizing c c' with
  | ind s ih =>
    subst hs
    rw [combos_eq, combos_eq, h.startsTerm 0]
    split
    · refine (combo_likewise h).onward ?_
      intro e e' d d' hc he hd
      refine (ih _ (combo_size hc) hd rfl).onward ?_
      intro es es' f f' _ hes hf
      exact ⟨.cons he hes, hf⟩
    · exact ⟨.nil, h⟩

theorem chain_likewise (h : c.Matches A c') :
    Likewise A (Onward A (Expr.Matches A)) (chain c) (chain c') := by
  unfold chain
  refine (combo_likewise h).onward ?_
  intro first first' d d' _ hfirst hd
  refine (combos_likewise hd).onward ?_
  intro others others' e e' _ hothers he
  refine ⟨?_, he⟩
  dsimp only
  rw [forall₂_isEmpty hothers]
  split
  · exact hfirst
  · obtain ⟨hl, hp⟩ := Expr.Matches.of_forall₂ (List.Forall₂.cons hfirst hothers)
    exact .chain hl hp (he.since h.span)

theorem transform_likewise (family : Option Family) (h : c.Matches A c') :
    Likewise A (Onward A Eq) (transform family c) (transform family c') := by
  unfold transform
  refine (count_likewise h).onward ?_
  rintro ⟨n, s⟩ ⟨n', s'⟩ d d' - ⟨hn, -⟩ hd
  obtain rfl : n = n' := hn
  exact ⟨rfl, hd⟩

theorem tail?_likewise (h : c.Matches A c') :
    Likewise A (Onward A Eq) (tail? c) (tail? c') := by
  have hinteger : ∀ make : Int → Tail, Likewise A (Onward A Eq)
      (integer c.next >>= fun r => .ok (some (make r.1.1), r.2))
      (integer c'.next >>= fun r => .ok (some (make r.1.1), r.2)) := by
    intro make
    refine (integer_likewise h.next).onward ?_
    rintro ⟨n, s⟩ ⟨n', s'⟩ d d' - ⟨hn, -⟩ hd
    obtain rfl : n = n' := hn
    exact ⟨rfl, hd⟩
  unfold tail?
  obtain ⟨ht, ht'⟩ | ⟨t, t', ht, ht', hm⟩ := h.token?
  · rw [ht, ht']
    exact ⟨rfl, h⟩
  rw [ht, ht']
  cases hm with
  | @word name name' hs =>
    dsimp only
    rw [h.isTransformer 0, ofName?_eq hs]
    split
    · exact ⟨rfl, h⟩
    split
    · split
      · exact transform_likewise _ h.next.next
      · exact h.fail rfl
    · exact h.fail rfl
  | mark m =>
    match m with
    | .semicolon =>
      dsimp only
      rw [h.next.at? .minus]
      have hd : (if !c'.next.at? .minus then c.next else c.next.next).Matches A
          (if !c'.next.at? .minus then c'.next else c'.next.next) := by
        split
        · exact h.next
        · exact h.next.next
      refine (count_likewise hd).onward ?_
      rintro ⟨n, s⟩ ⟨n', s'⟩ e e' - ⟨hn, hs⟩ he
      obtain rfl : n = n' := hn
      dsimp only
      split
      · exact ⟨rfl, hs⟩
      · exact ⟨rfl, he⟩
    | .at => exact hinteger .rotate
    | .greater => exact transform_likewise none h.next
    | .star =>
      refine (count_likewise h.next).onward ?_
      rintro ⟨n, s⟩ ⟨n', s'⟩ d d' - ⟨hn, -⟩ hd
      obtain rfl : n = n' := hn
      exact ⟨rfl, hd⟩
    | .plus => exact hinteger fun n => .evolve (.offset n)
    | .percent => exact hinteger fun n => .evolve (.offset n)
    | .leftParen | .rightParen | .leftBrace | .rightBrace | .leftBracket | .rightBracket | .comma
    | .colon | .minus | .tilde | .pipe => exact ⟨rfl, h⟩
  | _ => exact ⟨rfl, h⟩

/-- Of the first progressive tail it matters here only whether there is one. -/
theorem tails_likewise {first? first?' : Option Span} {e e' : Expr}
    (hfirst : first?.isSome = first?'.isSome) (he : e.Matches A e') (h : c.Matches A c')
    (hp : A.Aligned place place') :
    Likewise A (Onward A (Expr.Matches A)) (tails place first? e c)
      (tails place' first?' e' c') := by
  induction hs : c.size using Nat.strongRecOn generalizing c c' e e' first? first?' with
  | ind s ih =>
    subst hs
    rw [tails_eq, tails_eq]
    obtain ⟨err, err', ht, ht', herr⟩ | ⟨⟨t?, d⟩, ⟨_, d'⟩, ht, ht', rfl, hd⟩ :=
      (tail?_likewise h).elim
    · rw [ht, ht']
      exact herr
    rw [ht, ht']
    cases t? with
    | none => exact ⟨he, h⟩
    | some t =>
      have hsize := tail?_size ht
      cases t with
      | quantize steps clockwise =>
        exact ih _ hsize hfirst (.quantized he steps clockwise (hd.since hp)) hd rfl
      | rotate offset => exact ih _ hsize hfirst (.rotate he offset) hd rfl
      | evolve suffix =>
        cases first? with
        | some first =>
          cases first?' with
          | some first' => exact h.fail rfl
          | none => cases hfirst
        | none =>
          cases first?' with
          | some first' => cases hfirst
          | none => exact ih _ hsize rfl (.progressive suffix he) hd rfl

theorem body_likewise (h : c.Matches A c') :
    Likewise A (Onward A (Expr.Matches A)) (body c) (body c') := by
  unfold body
  refine (chain_likewise h).onward ?_
  intro e e' d d' _ he hd
  exact tails_likewise rfl he hd h.span

theorem accent_likewise (h : c.Matches A c') :
    Likewise A (Onward A (Expr.Matches A)) (accent c) (accent c') := by
  unfold accent
  dsimp only
  rw [h.next.at? .rightBrace, h.next.isEmpty]
  split
  · exact ⟨rfl, A.join h.span h.next.span⟩
  split
  · exact ⟨rfl, h.span⟩
  refine (term_likewise h.next).onward ?_
  intro e e' d d' _ he hd
  refine (hd.close h.span .leftBrace .rightBrace .closingBrace).bind ?_
  intro f f' _ hf
  exact ⟨he, hf⟩

theorem segment_likewise (h : c.Matches A c') :
    Likewise A (Expr.Matches A) (segment c) (segment c') := by
  have hrest : ∀ {accent? accent?' : Option Expr} {d d' : Cursor},
      Option.Rel (Expr.Matches A) accent? accent?' → d.Matches A d' →
      Likewise A (Expr.Matches A)
        (body d >>= fun r => if r.2.ahead.isEmpty then
          .ok ((accent?.map (.accented · r.1)).getD r.1)
          else .error ⟨.expected .endOfPattern r.2.token?, r.2.span⟩)
        (body d' >>= fun r => if r.2.ahead.isEmpty then
          .ok ((accent?'.map (.accented · r.1)).getD r.1)
          else .error ⟨.expected .endOfPattern r.2.token?, r.2.span⟩) := by
    intro accent? accent?' d d' haccent hd
    refine (body_likewise hd).onward ?_
    intro e e' f f' _ he hf
    dsimp only
    rw [hf.isEmpty]
    split
    · cases haccent with
      | none => exact he
      | some ha => exact .accented ha he
    · exact ⟨rfl, hf.span⟩
  unfold segment
  rw [h.isEmpty, h.at? .leftBrace]
  split
  · exact ⟨rfl, h.span⟩
  split
  · obtain ⟨err, err', ha, ha', herr⟩ | ⟨⟨a, d⟩, ⟨a', d'⟩, ha, ha', hm, hd⟩ :=
      (accent_likewise h).elim
    · rw [ha, ha']
      exact herr
    · rw [ha, ha']
      exact hrest (.some hm) hd
  · exact hrest .none h

variable {text text' : List Char} {n n' : Nat}

/-- Segments with tokens that match, at places that agree. -/
theorem parseSegment_likewise (hstart : A.Aligned ⟨n, 0⟩ ⟨n', 0⟩)
    (hfinish : A.Aligned ⟨n + text.length, 0⟩ ⟨n' + text'.length, 0⟩)
    (h : Likewise A (List.Forall₂ (Lexeme.Matches A)) (tokenize n text) (tokenize n' text')) :
    Likewise A (Expr.Matches A) (parseSegment n text) (parseSegment n' text') :=
  h.bind fun _ _ _ hls => segment_likewise ⟨hstart, hls, hfinish⟩

/-- Two texts read alike, with warnings of the same kinds at places that agree. -/
structure Parsed.Matches (A : Alignment) (p p' : Parsed) : Prop where
  expr : p.expr.Matches A p'.expr
  warnings : List.Forall₂ (NotationError.Matches A) p.warnings p'.warnings

section Scenes

variable {rs rs' : List (Fallible Expr)}

theorem sceneFaults_likewise (h : List.Forall₂ (Likewise A (Expr.Matches A)) rs rs') (k : Nat) :
    List.Forall₂ (NotationError.Matches A) (sceneFaults k rs) (sceneFaults k rs') := by
  induction h generalizing k with
  | nil => exact .nil
  | cons hr _ ih =>
    obtain ⟨e, e', rfl, rfl, he⟩ | ⟨e, e', rfl, rfl, -⟩ := hr.elim
    · exact .cons ⟨he.kind, he.span⟩ (ih (k + 1))
    · exact ih (k + 1)

theorem scenes_likewise (h : List.Forall₂ (Likewise A (Expr.Matches A)) rs rs') :
    List.Forall₂ (Expr.Matches A) (rs.map fun r => (expr? r).getD restScene)
      (rs'.map fun r => (expr? r).getD restScene) := by
  induction h with
  | nil => exact .nil
  | cons hr _ ih =>
    obtain ⟨e, e', rfl, rfl, -⟩ | ⟨e, e', rfl, rfl, he⟩ := hr.elim
    · exact .cons (.literal _) ih
    · exact .cons he ih

theorem filterMap_likewise (h : List.Forall₂ (Likewise A (Expr.Matches A)) rs rs') :
    (rs.filterMap expr?).isEmpty = (rs'.filterMap expr?).isEmpty := by
  induction h with
  | nil => rfl
  | cons hr _ ih =>
    obtain ⟨e, e', rfl, rfl, -⟩ | ⟨e, e', rfl, rfl, -⟩ := hr.elim
    · exact ih
    · rfl

theorem ofScenes_likewise (h : List.Forall₂ (Likewise A (Expr.Matches A)) rs rs') :
    Likewise A (Parsed.Matches A) (ofScenes rs) (ofScenes rs') := by
  have hfaults := sceneFaults_likewise h 1
  obtain ⟨hl, hp⟩ := Expr.Matches.of_forall₂ (scenes_likewise h)
  have hok : Parsed.Matches A
      ⟨.scenes (rs.map fun r => (expr? r).getD restScene), sceneFaults 1 rs⟩
      ⟨.scenes (rs'.map fun r => (expr? r).getD restScene), sceneFaults 1 rs'⟩ :=
    ⟨.scenes hl hp, hfaults⟩
  have hread := filterMap_likewise h
  unfold ofScenes
  revert hfaults hok hread
  generalize sceneFaults 1 rs = ws
  generalize sceneFaults 1 rs' = ws'
  generalize rs.filterMap expr? = es
  generalize rs'.filterMap expr? = es'
  intro hfaults hok hread
  cases es with
  | nil =>
    cases es' with
    | cons => cases hread
    | nil =>
      cases hfaults with
      | nil => exact hok
      | cons hw _ => exact hw
  | cons =>
    cases es' with
    | nil => cases hread
    | cons => exact hok

theorem parse_eq (text : List Char) : parse text =
    match readings text with
    | [r] => r.map (⟨·, []⟩)
    | rs => ofScenes rs := by
  unfold parse readings
  rcases sceneTexts text with _ | ⟨_, _ | _⟩ <;> rfl

/-- Texts with segments that are read alike are read alike. -/
theorem parse_likewise
    (h : List.Forall₂ (Likewise A (Expr.Matches A)) (readings text) (readings text')) :
    Likewise A (Parsed.Matches A) (parse text) (parse text') := by
  rw [parse_eq, parse_eq]
  generalize readings text = rs at h
  generalize readings text' = rs' at h
  rcases h with _ | ⟨hr, _ | ⟨hr', h⟩⟩
  · exact ofScenes_likewise .nil
  · obtain ⟨e, e', rfl, rfl, he⟩ | ⟨e, e', rfl, rfl, he⟩ := hr.elim
    · exact he
    · exact ⟨he, .nil⟩
  · exact ofScenes_likewise (.cons hr (.cons hr' h))

end Scenes

end Rhythm.Notation
