import Rhythm.Proofs.Notation.Passage

/-! A text further along is read as the same expression, or has the same fault, further along. -/
namespace Rhythm.Notation

open Text

/-- The same token, `n` characters later. -/
def Lexeme.shift (n : Nat) (l : Lexeme) : Lexeme := ⟨l.token, l.span.shift n⟩

/-- The same place among the same tokens, `n` characters later. -/
def Cursor.shift (n : Nat) (c : Cursor) : Cursor :=
  ⟨c.behind.shift n, c.ahead.map (·.shift n), c.finish.shift n⟩

variable {α β γ δ : Type} {n : Nat}

/-- A result `n` characters later, where `f` moves what was read. -/
def shifted (n : Nat) (f : α → β) (r : Fallible α) : Fallible β := (r.map f).mapError (·.shift n)

/-- A result and the place after it, both `n` characters later. -/
def further (n : Nat) (f : α → β) : Fallible (α × Cursor) → Fallible (β × Cursor) :=
  shifted n fun r => (f r.1, r.2.shift n)

/-- A number and its place, `n` characters later. -/
def later (n : Nat) (x : α × Span) : α × Span := (x.1, x.2.shift n)

theorem shifted_bind {f : α → β} {g : γ → δ} {r : Fallible α} {k : α → Fallible γ}
    {k' : β → Fallible δ} (h : ∀ a, k' (f a) = shifted n g (k a)) :
    (shifted n f r >>= k') = shifted n g (r >>= k) := by
  cases r with
  | error e => rfl
  | ok a => exact h a

theorem further_bind {f : α → β} {g : γ → δ} {r : Fallible (α × Cursor)}
    {k : α × Cursor → Fallible (γ × Cursor)} {k' : β × Cursor → Fallible (δ × Cursor)}
    (h : ∀ a c, r = .ok (a, c) → k' (f a, c.shift n) = further n g (k (a, c))) :
    (further n f r >>= k') = further n g (r >>= k) := by
  cases r with
  | error e => rfl
  | ok a => exact h a.1 a.2 rfl

theorem scanMarked_shift (place n : Nat) (fault : Fault) (token : List Char → Token)
    (member : Char → Bool) (cs : List Char) (hf : fault.shift n = fault) :
    scanMarked (place + n) fault token member cs =
      shifted n id (scanMarked place fault token member cs) := by
  unfold scanMarked
  dsimp only
  split
  · change _ = Except.error (NotationError.mk (fault.shift n) _)
    rw [hf]
    rfl
  · rfl

theorem scan_shift (place n : Nat) (c : Char) (cs : List Char) :
    scan (place + n) c cs = shifted n id (scan place c cs) := by
  unfold scan
  cases Mark.ofChar? c with
  | some m => rfl
  | none =>
    dsimp only
    split
    · exact scanMarked_shift place n _ _ _ _ rfl
    split
    · exact scanMarked_shift place n _ _ _ _ rfl
    split
    · rfl
    split
    · rfl
    split
    · exact scanMarked_shift place n _ _ _ _ rfl
    split
    · rfl
    split
    · rfl
    · rfl

theorem tokenize_shift (place n : Nat) (cs : List Char) :
    tokenize (place + n) cs = shifted n (·.map (·.shift n)) (tokenize place cs) := by
  fun_induction tokenize place cs with
  | case1 => rw [tokenize]; rfl
  | case2 place c cs hb ih =>
    rw [tokenize, if_pos hb, ← ih, Nat.add_right_comm]
  | case3 place c cs hb err hs =>
    rw [tokenize, if_neg hb, scan_shift, hs]
    rfl
  | case4 place c cs hb token more hs ih =>
    rw [tokenize, if_neg hb, scan_shift, hs]
    change (tokenize (place + n + (more + 1)) (cs.drop more)).map _ = _
    rw [Nat.add_right_comm place n, ih]
    cases tokenize (place + (more + 1)) (cs.drop more) <;> rfl

namespace Cursor

variable (c : Cursor)

theorem token?_shift : (c.shift n).token? = c.token? := by
  obtain ⟨behind, ahead, finish⟩ := c
  cases ahead <;> rfl

theorem at?_shift (m : Mark) : (c.shift n).at? m = c.at? m := by rw [at?, at?, token?_shift]

theorem peek_shift (i : Nat) : (c.shift n).peek i = c.peek i := by
  simp only [peek, shift, List.getElem?_map, Option.map_map]
  rfl

theorem span_shift : (c.shift n).span = c.span.shift n := by
  obtain ⟨behind, ahead, finish⟩ := c
  cases ahead <;> rfl

theorem next_shift : (c.shift n).next = c.next.shift n := by
  obtain ⟨behind, ahead, finish⟩ := c
  cases ahead <;> rfl

theorem isEmpty_shift : (c.shift n).ahead.isEmpty = c.ahead.isEmpty := by
  rw [shift, List.isEmpty_map]

theorem since_shift (s : Span) : (c.shift n).since (s.shift n) = (c.since s).shift n :=
  Span.join_shift ..

theorem isTransformer_shift (i : Nat) : (c.shift n).isTransformer i = c.isTransformer i := by
  rw [isTransformer, isTransformer, peek_shift]

theorem startsTerm_shift (i : Nat) : (c.shift n).startsTerm i = c.startsTerm i := by
  rw [startsTerm, startsTerm, peek_shift, isTransformer_shift]

theorem offsetAhead_shift : (c.shift n).offsetAhead = c.offsetAhead := by
  simp only [offsetAhead, peek_shift, isTransformer_shift]

theorem mergeSign?_shift : (c.shift n).mergeSign? = c.mergeSign? := by
  simp only [mergeSign?, at?_shift, offsetAhead_shift]

theorem operator?_shift : (c.shift n).operator? = c.operator? := by
  simp only [operator?, token?_shift, startsTerm_shift]

theorem unexpected_shift {what : Wanted} (f : α → β) :
    (c.shift n).unexpected what = further n f (c.unexpected what) := by
  rw [unexpected, unexpected, token?_shift, fail, fail, span_shift]
  rfl

theorem fail_shift {fault : Fault} (f : α → β) (hf : fault.shift n = fault) :
    (c.shift n).fail fault = further n f (c.fail fault) := by
  rw [fail, fail, span_shift]
  change _ = Except.error (NotationError.mk (fault.shift n) _)
  rw [hf]

theorem close_shift (opening closing : Mark) (place : Span) (what : Wanted) :
    (c.shift n).close opening (place.shift n) closing what =
      shifted n (·.shift n) (c.close opening place closing what) := by
  unfold close
  rw [at?_shift, next_shift, isEmpty_shift, token?_shift, span_shift]
  split
  · rfl
  split
  · rfl
  · rfl

end Cursor

open Cursor

variable (c : Cursor) (place : Span)

theorem integer_shift : integer (c.shift n) = further n (later n) (integer c) := by
  have hd : (if c.at? .minus then (c.shift n).next else c.shift n) =
      (if c.at? .minus then c.next else c).shift n := by
    rw [next_shift]
    split <;> rfl
  unfold integer
  dsimp only
  rw [at?_shift, hd, token?_shift, span_shift, span_shift, next_shift, Span.join_shift]
  cases (if c.at? .minus then c.next else c).token? with
  | none => exact unexpected_shift _ _
  | some t =>
    cases t with
    | digits ds =>
      dsimp only
      split
      · rfl
      · rfl
    | _ => exact unexpected_shift _ _

theorem count_shift : count (c.shift n) = further n (later n) (count c) := by
  unfold count
  rw [integer_shift]
  cases integer c with
  | error e => rfl
  | ok r =>
    change (if r.1.1 < 0 then _ else _) = further n (later n) (if r.1.1 < 0 then _ else _)
    split <;> rfl

theorem length?_shift : length? (c.shift n) = further n id (length? c) := by
  unfold length?
  rw [at?_shift, next_shift, count_shift]
  split
  · cases count c.next <;> rfl
  · rfl

theorem integers_eq : integers place c =
    if c.ahead.isEmpty then .error ⟨.unterminated .leftParen, place⟩
    else do
      let (k, d) ← integer c
      if d.at? .comma then do
        let (ks, d) ← integers place d.next
        return (k :: ks, d)
      else return ([k], d) := by
  rw [integers]
  split
  · rfl
  split
  · next he =>
    rw [he]
    rfl
  · next k d he =>
    rw [he]
    change _ = if d.at? .comma then _ else _
    split
    · cases integers place d.next <;> rfl
    · rfl

theorem integers_shift : integers (place.shift n) (c.shift n) =
    further n (·.map (later n)) (integers place c) := by
  induction hs : c.size using Nat.strongRecOn generalizing c with
  | ind s ih =>
    subst hs
    rw [integers_eq, integers_eq, isEmpty_shift]
    split
    · rfl
    rw [integer_shift]
    refine further_bind fun k d hk => ?_
    dsimp only
    rw [at?_shift]
    split
    · rw [next_shift, ih _ (Nat.lt_of_le_of_lt d.size_next_le (integer_size hk)) d.next rfl]
      exact further_bind fun ks d _ => rfl
    · rfl

theorem arguments_shift : arguments (place.shift n) (c.shift n) =
    further n (·.map (later n)) (arguments place c) := by
  unfold arguments
  rw [at?_shift, next_shift]
  split
  · rfl
  rw [integers_shift]
  refine further_bind fun ks d _ => ?_
  dsimp only
  rw [close_shift]
  exact shifted_bind fun d => rfl

theorem map_later (args : List (Int × Span)) : (args.map (later n)).map (·.1) = args.map (·.1) := by
  rw [List.map_map]
  rfl

theorem call_shift (family : Family) (args : List (Int × Span)) :
    call family (args.map (later n)) (place.shift n) =
      shifted n (·.shift n) (call family args place) := by
  have hfind : (args.map (later n)).zipIdx.find? (fun a => !family.signedArg a.2 && a.1.1 < 0) =
      (args.zipIdx.find? fun a => !family.signedArg a.2 && a.1.1 < 0).map
        fun a => (later n a.1, a.2) := by
    rw [List.zipIdx_map, List.find?_map]
    rfl
  unfold call
  dsimp only
  rw [map_later, hfind]
  split
  · rfl
  cases args.zipIdx.find? fun a => !family.signedArg a.2 && a.1.1 < 0 with
  | some a => rfl
  | none =>
    dsimp only [Option.map_none]
    split
    · rfl
    · split <;> rfl

theorem bellCall_shift (args : List (Int × Span)) :
    bellCall (args.map (later n)) (place.shift n) =
      shifted n (·.shift n) (bellCall args place) := by
  have hfind : (args.map (later n)).find? (fun a => decide (a.1 < 0)) =
      (args.find? fun a => decide (a.1 < 0)).map (later n) := by
    rw [List.find?_map]
    rfl
  unfold bellCall
  rw [map_later, hfind]
  generalize args.map (·.1) = values
  cases args.find? fun a => decide (a.1 < 0) with
  | none => rcases values with _ | ⟨_, _ | ⟨_, _ | ⟨_, _⟩⟩⟩ <;> rfl
  | some a => rcases values with _ | ⟨_, _ | ⟨_, _ | ⟨_, _⟩⟩⟩ <;> rfl

theorem atBell_shift : (c.shift n).atBell = c.atBell := by rw [atBell, atBell, token?_shift]

theorem afterBell_shift : (c.shift n).afterBell = shifted n (·.shift n) c.afterBell := by
  unfold afterBell
  rw [at?_shift, at?_shift, next_shift, token?_shift, span_shift]
  split
  · rfl
  split
  · rfl
  · rfl

theorem generator_shift (family : Family) :
    generator family (place.shift n) (c.shift n) =
      further n (·.shift n) (generator family place c) := by
  unfold generator
  rw [next_shift, next_shift, atBell_shift, span_shift]
  split
  · rw [afterBell_shift]
    refine shifted_bind fun d => ?_
    rw [arguments_shift]
    refine further_bind fun args d _ => ?_
    dsimp only
    rw [since_shift, bellCall_shift]
    exact shifted_bind fun e => rfl
  · rw [arguments_shift]
    refine further_bind fun args d _ => ?_
    dsimp only
    rw [since_shift, call_shift]
    exact shifted_bind fun e => rfl

theorem positions_eq : positions place c =
    if c.at? .rightBracket then .ok ([], c.next)
    else if c.ahead.isEmpty then .error ⟨.unterminated .leftBracket, place⟩
    else count c >>= fun r =>
      if r.2.at? .comma then positions place r.2.next >>= fun s => pure (r.1 :: s.1, s.2)
      else if r.2.at? .rightBracket then pure ([r.1], r.2.next)
      else r.2.unexpected .commaOrBracket := by
  rw [positions]
  split
  · rfl
  split
  · rfl
  split
  · next he =>
    rw [he]
    rfl
  · next k d he =>
    rw [he]
    change _ = if d.at? .comma then _ else if d.at? .rightBracket then _ else _
    split
    · cases positions place d.next <;> rfl
    · rfl

theorem positions_shift : positions (place.shift n) (c.shift n) =
    further n (·.map (later n)) (positions place c) := by
  induction hs : c.size using Nat.strongRecOn generalizing c with
  | ind s ih =>
    subst hs
    rw [positions_eq, positions_eq, at?_shift, next_shift, isEmpty_shift]
    split
    · rfl
    split
    · rfl
    rw [count_shift]
    refine further_bind fun k d hk => ?_
    dsimp only
    rw [at?_shift, at?_shift, next_shift]
    split
    · rw [ih _ (Nat.lt_of_le_of_lt d.size_next_le (count_size hk)) d.next rfl]
      exact further_bind fun ks d _ => rfl
    split
    · rfl
    · exact unexpected_shift d _

theorem onsetList_shift : onsetList (c.shift n) = further n (·.shift n) (onsetList c) := by
  unfold onsetList
  rw [span_shift, next_shift, positions_shift]
  refine further_bind fun entries d _ => ?_
  dsimp only
  have hleast : (entries.map (later n)).map (·.1 + 1) = entries.map (·.1 + 1) := by
    rw [List.map_map]
    rfl
  have hvalues : (entries.map (later n)).map (·.1) = entries.map (·.1) := by
    rw [List.map_map]
    rfl
  rw [hleast, hvalues, length?_shift]
  refine further_bind fun steps d _ => ?_
  dsimp only
  have hfind : (entries.map (later n)).find? (fun entry =>
      decide (clampSteps (steps.getD ((entries.map (·.1 + 1)).foldl max 8)) ≤ entry.1)) =
      (entries.find? fun entry => decide
        (clampSteps (steps.getD ((entries.map (·.1 + 1)).foldl max 8)) ≤ entry.1)).map
          (later n) := by
    rw [List.find?_map]
    rfl
  rw [id, hfind]
  cases entries.find? fun entry => decide
    (clampSteps (steps.getD ((entries.map (·.1 + 1)).foldl max 8)) ≤ entry.1) <;> rfl

theorem placed_shift (r : Except PatternError α) :
    placed (place.shift n) r = shifted n id (placed place r) := by
  cases r <;> rfl

theorem numeral_shift (radix : Radix) (ds : List Char) :
    numeral radix ds (c.shift n) = further n (·.shift n) (numeral radix ds c) := by
  unfold numeral
  rw [span_shift, next_shift, length?_shift]
  refine further_bind fun steps d _ => ?_
  dsimp only
  rw [placed_shift]
  exact shifted_bind fun p => rfl

theorem binary_shift (ds : List Char) :
    binary ds (c.shift n) = further n (·.shift n) (binary ds c) := by
  unfold binary
  rw [span_shift, next_shift, placed_shift]
  refine shifted_bind fun p => ?_
  rw [length?_shift]
  exact further_bind fun steps d _ => rfl

theorem named_shift (name : List Char) :
    named name (c.shift n) = further n (·.shift n) (named name c) := by
  unfold named
  rw [next_shift, at?_shift, span_shift]
  split
  · cases Family.ofName? name with
    | some family => exact generator_shift ..
    | none => exact fail_shift c _ rfl
  · cases preset? name with
    | some p => rfl
    | none => exact fail_shift c _ rfl

theorem primary_shift : primary (c.shift n) = further n (·.shift n) (primary c) := by
  unfold primary
  rw [token?_shift]
  split
  · split
    · exact binary_shift ..
    · exact numeral_shift ..
  · exact numeral_shift ..
  · rw [span_shift, placed_shift, next_shift]
    cases placed c.span (morse _) <;> rfl
  · exact onsetList_shift c
  · exact named_shift ..
  · exact fail_shift c _ rfl
  · exact unexpected_shift c _

theorem operator_shift {f : Expr → Expr} (hf : c.operator? = some f) (e : Expr) :
    f (e.shift n) = (f e).shift n := by
  unfold operator? at hf
  split at hf
  · cases hf
    rfl
  · split at hf
    · cases hf
    split at hf
    · cases hf
      rfl
    split at hf
    · cases hf
      rfl
    · cases hf
  · cases hf

theorem term_eq : term c = match c.operator? with
    | none => primary c
    | some f => do
      let (e, d) ← term c.next
      return (f e, d) := by
  rw [term]
  split
  · next hf => rw [hf]
  · next f hf =>
    rw [hf]
    dsimp only
    cases term c.next <;> rfl

theorem term_shift : term (c.shift n) = further n (·.shift n) (term c) := by
  induction hs : c.size using Nat.strongRecOn generalizing c with
  | ind s ih =>
    subst hs
    rw [term_eq c, term_eq (c.shift n), operator?_shift, next_shift]
    cases hf : c.operator? with
    | none => exact primary_shift c
    | some f =>
      dsimp only
      rw [ih _ (operator?_size hf) c.next rfl]
      refine further_bind fun e d _ => ?_
      dsimp only
      rw [operator_shift c hf]
      rfl

theorem merges_eq (left : Expr) : merges place left c = match c.mergeSign? with
    | none => .ok (left, c)
    | some how => (do
      let (right, d) ← term c.next
      merges place (.combination how left right (d.since place)) d) := by
  rw [merges]
  split
  · next hm => rw [hm]
  · next how hm =>
    rw [hm]
    dsimp only
    split
    · next ht =>
      rw [ht]
      rfl
    · next ht =>
      rw [ht]
      rfl

theorem merges_shift (left : Expr) : merges (place.shift n) (left.shift n) (c.shift n) =
    further n (·.shift n) (merges place left c) := by
  induction hs : c.size using Nat.strongRecOn generalizing c left with
  | ind s ih =>
    subst hs
    rw [merges_eq c, merges_eq (c.shift n), mergeSign?_shift, next_shift, term_shift]
    cases hm : c.mergeSign? with
    | none => rfl
    | some how =>
      dsimp only
      refine further_bind fun right d ht => ?_
      dsimp only
      rw [since_shift]
      exact ih _ (Nat.lt_trans (term_size ht) (mergeSign?_size hm)) d
        (.combination how left right (d.since place)) rfl

theorem combo_shift : combo (c.shift n) = further n (·.shift n) (combo c) := by
  unfold combo
  rw [term_shift, span_shift]
  cases term c with
  | error e => rfl
  | ok r => exact merges_shift ..

theorem combos_eq : combos c =
    if c.startsTerm 0 then do
      let (e, d) ← combo c
      let (es, d) ← combos d
      return (e :: es, d)
    else .ok ([], c) := by
  rw [combos]
  split
  · split
    · next he =>
      rw [he]
      rfl
    · next e d he =>
      rw [he]
      change _ = (combos d >>= _)
      cases combos d <;> rfl
  · rfl

theorem combos_shift : combos (c.shift n) = further n (·.map (·.shift n)) (combos c) := by
  induction hs : c.size using Nat.strongRecOn generalizing c with
  | ind s ih =>
    subst hs
    rw [combos_eq, combos_eq, startsTerm_shift, combo_shift]
    split
    · refine further_bind fun e d he => ?_
      dsimp only
      rw [ih _ (combo_size he) d rfl]
      exact further_bind fun es d _ => rfl
    · rfl

theorem shiftAll_eq_map (es : List Expr) : Expr.shiftAll n es = es.map (·.shift n) := by
  induction es with
  | nil => rw [Expr.shiftAll, List.map_nil]
  | cons e es ih => rw [Expr.shiftAll, List.map_cons, ih]

theorem chain_shift : chain (c.shift n) = further n (·.shift n) (chain c) := by
  unfold chain
  rw [combo_shift]
  refine further_bind fun first d _ => ?_
  dsimp only
  rw [combos_shift]
  refine further_bind fun others d _ => ?_
  dsimp only
  rw [List.isEmpty_map, span_shift, since_shift]
  change Except.ok _ = Except.ok _
  congr 2
  split
  · rfl
  · change _ = Expr.shift n (.chain (first :: others) (d.since c.span))
    rw [Expr.shift, shiftAll_eq_map, List.map_cons]

theorem transform_shift (family : Option Family) :
    transform family (c.shift n) = further n id (transform family c) := by
  unfold transform
  rw [count_shift]
  exact further_bind fun k d _ => rfl

theorem tail?_shift : tail? (c.shift n) = further n id (tail? c) := by
  have hd : (if !c.next.at? .minus then c.next.shift n else c.next.next.shift n) =
      (if !c.next.at? .minus then c.next else c.next.next).shift n := by
    split <;> rfl
  unfold tail?
  rw [token?_shift]
  simp only [next_shift, at?_shift, isTransformer_shift, hd, count_shift, integer_shift,
    transform_shift]
  split
  · refine further_bind fun k d _ => ?_
    dsimp only [later]
    split <;> rfl
  · exact further_bind fun k d _ => rfl
  · rfl
  · split
    · rfl
    split
    · split
      · rfl
      · exact fail_shift c _ rfl
    · exact fail_shift c _ rfl
  · exact further_bind fun k d _ => rfl
  · exact further_bind fun k d _ => rfl
  · exact further_bind fun k d _ => rfl
  · rfl

theorem tails_shift (first? : Option Span) (e : Expr) :
    tails (place.shift n) (first?.map (·.shift n)) (e.shift n) (c.shift n) =
      further n (·.shift n) (tails place first? e c) := by
  induction hs : c.size using Nat.strongRecOn generalizing c e first? with
  | ind s ih =>
    subst hs
    rw [tails_eq, tails_eq, tail?_shift]
    cases ht : tail? c with
    | error err => rfl
    | ok r =>
      obtain ⟨t?, d⟩ := r
      cases t? with
      | none => rfl
      | some t =>
        have hsize := tail?_size ht
        cases t with
        | quantize steps clockwise =>
          change tails _ _ (.quantized _ _ _ ((d.shift n).since (place.shift n))) _ = _
          rw [since_shift]
          exact ih _ hsize d first? (.quantized e steps clockwise (d.since place)) rfl
        | rotate offset => exact ih _ hsize d first? (.rotate e offset) rfl
        | evolve suffix =>
          cases first? with
          | some first =>
            change fail _ _ = further n _ (fail _ _)
            rw [fail, fail, span_shift]
            rfl
          | none =>
            change tails _ (some (c.shift n).span) _ _ = _
            rw [span_shift]
            exact ih _ hsize d (some c.span) (.progressive suffix e) rfl

theorem body_shift : body (c.shift n) = further n (·.shift n) (body c) := by
  unfold body
  rw [chain_shift, span_shift]
  exact further_bind fun e d _ => tails_shift d c.span none e

theorem accent_shift : accent (c.shift n) = further n (·.shift n) (accent c) := by
  unfold accent
  dsimp only
  rw [next_shift, at?_shift, isEmpty_shift, span_shift, span_shift, term_shift, Span.join_shift]
  split
  · rfl
  split
  · rfl
  · refine further_bind fun e d _ => ?_
    dsimp only
    rw [close_shift]
    exact shifted_bind fun d => rfl

theorem segment_shift : segment (c.shift n) = shifted n (·.shift n) (segment c) := by
  have hend : ∀ (a? : Option Expr) (d : Cursor), (body (d.shift n) >>= fun r =>
        if r.2.ahead.isEmpty then pure (((a?.map (·.shift n)).map (.accented · r.1)).getD r.1)
        else .error ⟨.expected .endOfPattern r.2.token?, r.2.span⟩ : Fallible Expr) =
      shifted n (·.shift n) (body d >>= fun r =>
        if r.2.ahead.isEmpty then pure ((a?.map (.accented · r.1)).getD r.1)
        else .error ⟨.expected .endOfPattern r.2.token?, r.2.span⟩) := by
    intro a? d
    rw [body_shift]
    refine shifted_bind fun r => ?_
    dsimp only
    rw [isEmpty_shift, token?_shift, span_shift]
    split
    · cases a? <;> rfl
    · rfl
  unfold segment
  rw [isEmpty_shift, at?_shift, span_shift, accent_shift]
  split
  · rfl
  split
  · cases accent c with
    | error err => rfl
    | ok r => exact hend (some r.1) r.2
  · exact hend none c

/-- Wherever a text stands, it is read in the same way. -/
theorem parseSegment_shift (place n : Nat) (text : List Char) :
    parseSegment (place + n) text = shifted n (·.shift n) (parseSegment place text) := by
  have hstart : ∀ tokens, (Cursor.start place text tokens).shift n =
      .start (place + n) text (tokens.map (·.shift n)) := by
    intro tokens
    simp only [Cursor.start, Cursor.shift, Span.shift, Nat.add_right_comm place]
  unfold parseSegment
  rw [tokenize_shift]
  refine shifted_bind fun tokens => ?_
  rw [← hstart, segment_shift]

end Rhythm.Notation
