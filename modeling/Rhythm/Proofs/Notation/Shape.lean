import Rhythm.Notation.Scenes

/-! Which expressions a text can have. -/
namespace Rhythm.Notation

/-- The arguments that a call of a family takes. -/
structure Family.Takes (family : Family) (args : List Int) : Prop where
  length_ge : 2 ≤ args.length
  length_le : args.length ≤ family.maxArgs
  nonneg : ∀ i n, args[i]? = some n → family.signedArg i = false → 0 ≤ n
  onsets_le : ∀ n, (if family = .polygon then args[2]? else args[1]?) = some n →
    args[0]?.getD 0 ≤ n

namespace Expr

/-- What terms, combinations and chains are made of. -/
inductive IsChain : Expr → Prop
  | literal {p : Pattern} : IsChain (.literal p)
  | generator {family : Family} {args : List Int} {span : Span} (h : family.Takes args) :
    IsChain (.generator family args span)
  | bell {steps : Nat} {seed : Option UInt64} {span : Span} : IsChain (.bell steps seed span)
  | combination {how : Merge} {left right : Expr} {span : Span} (hl : IsChain left)
    (hr : IsChain right) : IsChain (.combination how left right span)
  | chain {parts : List Expr} {span : Span} (h : ∀ e ∈ parts, IsChain e) :
    IsChain (.chain parts span)
  | invert {body : Expr} (h : IsChain body) : IsChain (.invert body)
  | reverse {body : Expr} (h : IsChain body) : IsChain (.reverse body)

/-- A chain with its tails, of which at most one is progressive. The flag tells whether one is. -/
inductive IsBody : Bool → Expr → Prop
  | chain {e : Expr} (h : IsChain e) : IsBody false e
  | quantized {b : Bool} {body : Expr} {steps : Nat} {clockwise : Bool} {span : Span}
    (hp : 0 < steps) (hl : steps ≤ maxSteps) (h : IsBody b body) :
    IsBody b (.quantized body steps clockwise span)
  | rotate {b : Bool} {body : Expr} {offset : Int} (h : IsBody b body) :
    IsBody b (.rotate body offset)
  | progressive {suffix : Suffix} {body : Expr} (h : IsBody false body) :
    IsBody true (.progressive suffix body)

/-- A body, or one with an accent in front. -/
inductive IsScene : Expr → Prop
  | bare {b : Bool} {e : Expr} (h : IsBody b e) : IsScene e
  | accented {b : Bool} {a e : Expr} (ha : IsChain a) (h : IsBody b e) : IsScene (.accented a e)

theorem anyProgressive_eq (es : List Expr) : anyProgressive es = es.any isProgressive := by
  induction es with
  | nil => rw [anyProgressive, List.any_nil]
  | cons e es ih => rw [anyProgressive, List.any_cons, ih]

end Expr

open Rhythm.Notation.Expr

variable {c d : Cursor} {e : Expr} {place : Span}

theorem call_isChain {family : Family} {args : List (Int × Span)}
    (h : call family args place = .ok e) : e.IsChain := by
  unfold call at h
  dsimp only at h
  split at h
  · cases h
  · next hlen =>
    rw [not_or, Nat.not_lt, Nat.not_lt] at hlen
    split at h
    · cases h
    · next hneg =>
      have hnonneg : ∀ i n, (args.map (·.1))[i]? = some n → family.signedArg i = false → 0 ≤ n := by
        intro i n hn hs
        rw [List.getElem?_map, Option.map_eq_some_iff] at hn
        obtain ⟨a, ha, rfl⟩ := hn
        have := List.find?_eq_none.1 hneg _ (List.mem_zipIdx_iff_getElem?.2 ha : (a, i) ∈ _)
        simpa [hs] using this
      split at h
      · next hsteps =>
        cases h
        refine .generator ⟨hlen.1, hlen.2, hnonneg, ?_⟩
        intro n hn
        rw [hsteps] at hn
        cases hn
      · next steps hsteps =>
        split at h
        · cases h
        · next hle =>
          cases h
          refine .generator ⟨hlen.1, hlen.2, hnonneg, ?_⟩
          intro n hn
          rw [hsteps] at hn
          cases hn
          exact Int.not_lt.1 hle

theorem bellCall_isChain {args : List (Int × Span)} (h : bellCall args place = .ok e) :
    e.IsChain := by
  unfold bellCall at h
  split at h <;> cases h <;> exact .bell

theorem generator_isChain {family : Family} (h : generator family place c = .ok (e, d)) :
    e.IsChain := by
  unfold generator at h
  split at h <;>
    simp only [bind_eq_ok, pure, Except.pure, Except.ok.injEq, Prod.mk.injEq] at h
  · obtain ⟨_, -, _, -, _, he, rfl, -⟩ := h
    exact bellCall_isChain he
  · obtain ⟨_, -, _, he, rfl, -⟩ := h
    exact call_isChain he

theorem onsetList_isChain (h : onsetList c = .ok (e, d)) : e.IsChain := by
  simp only [onsetList, bind_eq_ok] at h
  obtain ⟨_, -, _, -, h⟩ := h
  split at h
  · cases h
  · cases h
    exact .literal

theorem numeral_isChain {radix : Radix} {ds : List Char} (h : numeral radix ds c = .ok (e, d)) :
    e.IsChain := by
  simp only [numeral, bind_eq_ok, pure, Except.pure, Except.ok.injEq, Prod.mk.injEq] at h
  obtain ⟨_, -, _, -, rfl, -⟩ := h
  exact .literal

theorem binary_isChain {ds : List Char} (h : binary ds c = .ok (e, d)) : e.IsChain := by
  simp only [binary, bind_eq_ok, pure, Except.pure, Except.ok.injEq, Prod.mk.injEq] at h
  obtain ⟨_, -, _, -, rfl, -⟩ := h
  exact .literal

theorem named_isChain {name : List Char} (h : named name c = .ok (e, d)) : e.IsChain := by
  unfold named at h
  split at h
  · split at h
    · exact generator_isChain h
    · cases h
  · split at h
    · cases h
      exact .literal
    · cases h

theorem primary_isChain (h : primary c = .ok (e, d)) : e.IsChain := by
  unfold primary at h
  split at h
  · split at h
    · exact binary_isChain h
    · exact numeral_isChain h
  · exact numeral_isChain h
  · split at h
    · cases h
      exact .literal
    · cases h
  · exact onsetList_isChain h
  · exact named_isChain h
  · cases h
  · cases h

theorem operator?_isChain {f : Expr → Expr} (h : c.operator? = some f) (he : e.IsChain) :
    (f e).IsChain := by
  unfold Cursor.operator? at h
  split at h
  · cases h
    exact .invert he
  · split at h
    · cases h
    · split at h
      · cases h
        exact .reverse he
      · split at h
        · cases h
          exact .invert he
        · cases h
  · cases h

theorem term_isChain (h : term c = .ok (e, d)) : e.IsChain := by
  fun_induction term c generalizing e d with
  | case1 => exact primary_isChain h
  | case2 => cases h
  | case3 c f hf e' d' hr ih =>
    cases h
    exact operator?_isChain hf (ih hr)

theorem merges_isChain {left : Expr} (hl : left.IsChain) (h : merges place left c = .ok (e, d)) :
    e.IsChain := by
  fun_induction merges place left c generalizing e d with
  | case1 =>
    cases h
    exact hl
  | case2 => cases h
  | case3 _ c how hs right f ht ih => exact ih (.combination hl (term_isChain ht)) h

theorem combo_isChain (h : combo c = .ok (e, d)) : e.IsChain := by
  unfold combo at h
  split at h
  · cases h
  · next ht => exact merges_isChain (term_isChain ht) h

theorem combos_isChain {es : List Expr} (h : combos c = .ok (es, d)) : ∀ e ∈ es, e.IsChain := by
  fun_induction combos c generalizing es d with
  | case1 => cases h
  | case2 => cases h
  | case3 c _ e d' hc es' d'' hr ih =>
    cases h
    intro x hx
    rcases List.mem_cons.1 hx with rfl | hx
    · exact combo_isChain hc
    · exact ih hr x hx
  | case4 =>
    cases h
    simp

theorem chain_isChain (h : chain c = .ok (e, d)) : e.IsChain := by
  simp only [chain, bind_eq_ok, pure, Except.pure, Except.ok.injEq, Prod.mk.injEq] at h
  obtain ⟨⟨first, d'⟩, hf, ⟨others, d''⟩, ho, rfl, -⟩ := h
  have hfirst := combo_isChain hf
  split
  · exact hfirst
  · refine .chain ?_
    intro x hx
    rcases List.mem_cons.1 hx with rfl | hx
    · exact hfirst
    · exact combos_isChain ho x hx

theorem transform_evolve {family : Option Family} {t : Tail}
    (h : transform family c = .ok (some t, d)) : ∃ suffix, t = .evolve suffix := by
  simp only [transform, bind_eq_ok, pure, Except.pure, Except.ok.injEq, Prod.mk.injEq] at h
  obtain ⟨_, -, ht, -⟩ := h
  cases ht
  exact ⟨_, rfl⟩

theorem tail?_quantize {steps : Nat} {clockwise : Bool}
    (h : tail? c = .ok (some (.quantize steps clockwise), d)) : 0 < steps ∧ steps ≤ maxSteps := by
  unfold tail? at h
  split at h
  · simp only [bind_eq_ok] at h
    obtain ⟨⟨⟨n, s⟩, f⟩, -, h⟩ := h
    split at h
    · cases h
    · next hn =>
      cases h
      rw [not_or, Nat.not_lt] at hn
      exact ⟨Nat.pos_of_ne_zero hn.1, hn.2⟩
  · simp only [bind_eq_ok, pure, Except.pure, Except.ok.injEq, Prod.mk.injEq] at h
    obtain ⟨_, -, h, -⟩ := h
    cases h
  · obtain ⟨_, ht⟩ := transform_evolve h
    cases ht
  · split at h
    · cases h
    · split at h
      · split at h
        · obtain ⟨_, ht⟩ := transform_evolve h
          cases ht
        · cases h
      · cases h
  · simp only [bind_eq_ok, pure, Except.pure, Except.ok.injEq, Prod.mk.injEq] at h
    obtain ⟨_, -, h, -⟩ := h
    cases h
  · simp only [bind_eq_ok, pure, Except.pure, Except.ok.injEq, Prod.mk.injEq] at h
    obtain ⟨_, -, h, -⟩ := h
    cases h
  · simp only [bind_eq_ok, pure, Except.pure, Except.ok.injEq, Prod.mk.injEq] at h
    obtain ⟨_, -, h, -⟩ := h
    cases h
  · cases h

theorem tails_isBody {first? : Option Span} {body : Expr} (hb : IsBody first?.isSome body)
    (h : tails place first? body c = .ok (e, d)) : ∃ b, IsBody b e := by
  fun_induction tails place first? body c generalizing e d with
  | case1 => cases h
  | case2 =>
    cases h
    exact ⟨_, hb⟩
  | case3 first? body c steps clockwise d' ht ih =>
    obtain ⟨hp, hl⟩ := tail?_quantize ht
    exact ih (.quantized hp hl hb) h
  | case4 first? body c offset d' ht ih => exact ih (.rotate hb) h
  | case5 => cases h
  | case6 c body suffix d' ht ih => exact ih (.progressive hb) h

theorem body_isBody (h : body c = .ok (e, d)) : ∃ b, IsBody b e := by
  simp only [body, bind_eq_ok] at h
  obtain ⟨⟨e', d'⟩, hc, h⟩ := h
  have hnone : IsBody (none : Option Span).isSome e' := .chain (chain_isChain hc)
  exact tails_isBody hnone h

theorem accent_isChain (h : accent c = .ok (e, d)) : e.IsChain := by
  simp only [accent] at h
  split at h
  · cases h
  · split at h
    · cases h
    · simp only [bind_eq_ok, pure, Except.pure, Except.ok.injEq, Prod.mk.injEq] at h
      obtain ⟨⟨e', d'⟩, ht, _, -, rfl, -⟩ := h
      exact term_isChain ht

theorem segment_isScene (h : segment c = .ok e) : e.IsScene := by
  unfold segment at h
  by_cases hempty : c.ahead.isEmpty = true
  · rw [if_pos hempty] at h
    cases h
  · rw [if_neg hempty] at h
    dsimp only at h
    split at h
    · simp only [bind_eq_ok] at h
      obtain ⟨⟨accent?, d⟩, ha, ⟨e', d'⟩, hb, h⟩ := h
      obtain ⟨b, hbody⟩ := body_isBody hb
      cases hacc : accent c with
      | error err =>
        rw [hacc] at ha
        cases ha
      | ok r =>
        rw [hacc] at ha
        cases ha
        split at h
        · cases h
          exact .accented (accent_isChain (d := r.2) hacc) hbody
        · cases h
    · simp only [bind_eq_ok] at h
      obtain ⟨⟨accent?, d⟩, ha, ⟨e', d'⟩, hb, h⟩ := h
      obtain ⟨b, hbody⟩ := body_isBody hb
      cases ha
      split at h
      · cases h
        exact .bare hbody
      · cases h

theorem parseSegment_isScene {n : Nat} {text : List Char} (h : parseSegment n text = .ok e) :
    e.IsScene := by
  simp only [parseSegment, bind_eq_ok] at h
  obtain ⟨_, -, h⟩ := h
  exact segment_isScene h

theorem located_length (place : Nat) (ts : List (List Char)) :
    (sceneTexts.located place ts).length = ts.length := by
  induction ts generalizing place with
  | nil => rfl
  | cons t ts ih => simp [sceneTexts.located, ih]

/-- What a text can be: one scene, or several that take turns. -/
inductive Parsed.Shaped : Parsed → Prop
  | single {e : Expr} (h : e.IsScene) : Shaped ⟨e, []⟩
  | several {es : List Expr} {warnings : List NotationError} (hne : es ≠ [])
    (h : ∀ e ∈ es, e.IsScene) : Shaped ⟨.scenes es, warnings⟩

theorem ofScenes_shaped {readings : List (Fallible Expr)} {parsed : Parsed}
    (hr : readings ≠ []) (hs : ∀ e, .ok e ∈ readings → e.IsScene)
    (h : ofScenes readings = .ok parsed) : parsed.Shaped := by
  unfold ofScenes at h
  split at h
  · cases h
  · cases h
    refine .several (by simpa using hr) ?_
    intro e he
    obtain ⟨r, hm, rfl⟩ := List.mem_map.1 he
    cases r with
    | ok e => exact hs e hm
    | error err => exact .bare (.chain .literal)

theorem parse_shaped {text : List Char} {parsed : Parsed} (h : parse text = .ok parsed) :
    parsed.Shaped := by
  unfold parse at h
  split at h
  · next place t _ =>
    cases hp : parseSegment place t with
    | error err =>
      rw [hp] at h
      cases h
    | ok e =>
      rw [hp] at h
      cases h
      exact .single (parseSegment_isScene hp)
  · apply ofScenes_shaped _ _ h
    · intro hnil
      have hlen := congrArg List.length hnil
      rw [List.length_map, sceneTexts, located_length] at hlen
      exact List.splitOn_ne_nil _ _ (List.length_eq_zero_iff.1 hlen)
    · intro e he
      obtain ⟨t, -, ht⟩ := List.mem_map.1 he
      exact parseSegment_isScene ht

end Rhythm.Notation
