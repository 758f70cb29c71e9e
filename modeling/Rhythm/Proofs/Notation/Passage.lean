import Rhythm.Proofs.Notation.Grammar

/-! The way from one place among the tokens to a later one, and the numbers read on it. -/
namespace Rhythm.Notation

open Text Phrase

/-- The way from a place to a later one leads over the tokens of a phrase. -/
structure Cursor.Passes (c : Cursor) (ts : List Lexeme) (d : Cursor) : Prop where
  ahead : c.ahead = ts ++ d.ahead
  behind : d.behind = lastSpan c.behind ts
  finish : d.finish = c.finish

variable {c d e : Cursor} {ts us ls : List Lexeme} {l : Lexeme} {t : Token} {m : Mark} {n : Int}
  {k : Nat} {k? : Option Nat} {place : Span}

theorem lastSpan_append (s : Span) (ts us : List Lexeme) :
    lastSpan s (ts ++ us) = lastSpan (lastSpan s ts) us := by
  induction ts generalizing s with
  | nil => rfl
  | cons l ts ih => exact ih l.span

namespace Cursor

theorem token?_eq (h : c.ahead = l :: ls) : c.token? = some l.token := by
  rw [token?, h]
  rfl

theorem token?_nil (h : c.ahead = []) : c.token? = none := by
  rw [token?, h]
  rfl

theorem span_eq (h : c.ahead = l :: ls) : c.span = l.span := by
  rw [span, h]
  rfl

theorem next_eq (h : c.ahead = l :: ls) : c.next = ⟨l.span, ls, c.finish⟩ := by
  rw [next, h]

theorem exists_of_token? (h : c.token? = some t) : ∃ l ls, c.ahead = l :: ls ∧ l.token = t := by
  cases ha : c.ahead with
  | nil =>
    rw [token?_nil ha] at h
    cases h
  | cons l ls =>
    rw [token?_eq ha] at h
    exact ⟨l, ls, rfl, Option.some.inj h⟩

theorem at?_iff : c.at? m = true ↔ Starts m c.ahead := by
  simp [at?, token?, Starts]

theorem at?_eq_false_iff : c.at? m = false ↔ ¬ Starts m c.ahead := by
  rw [← at?_iff, Bool.not_eq_true]

theorem exists_of_at? (h : c.at? m = true) : ∃ l ls, c.ahead = l :: ls ∧ l.token = .mark m :=
  exists_of_token? (by simpa [at?] using h)

theorem at?_of_ahead (h : c.ahead = l :: ls) (ht : l.token = .mark m) : c.at? m = true := by
  rw [at?, token?_eq h, ht]
  exact beq_self_eq_true _

theorem at?_ne (h : c.ahead = l :: ls) (ht : l.token ≠ .mark m) : c.at? m = false := by
  rw [at?, token?_eq h]
  simpa using ht

theorem peek_zero (c : Cursor) : c.peek 0 = c.token? := by
  rw [peek, token?, List.head?_eq_getElem?]

theorem peek_succ (h : c.ahead = l :: ls) (i : Nat) : c.peek (i + 1) = c.next.peek i := by
  rw [peek, peek, next_eq h, h, List.getElem?_cons_succ]

theorem Passes.refl (c : Cursor) : c.Passes [] c := ⟨rfl, rfl, rfl⟩

theorem Passes.trans (h : c.Passes ts d) (h' : d.Passes us e) : c.Passes (ts ++ us) e where
  ahead := by rw [h.ahead, h'.ahead, List.append_assoc]
  behind := by rw [h'.behind, h.behind, lastSpan_append]
  finish := h'.finish.trans h.finish

theorem passes_next (h : c.ahead = l :: ls) : c.Passes [l] c.next := by
  rw [next_eq h]
  exact ⟨h, rfl, rfl⟩

/-- A passage begins with the next token. -/
theorem Passes.cons (h : c.ahead = l :: ls) (h' : c.next.Passes ts d) : c.Passes (l :: ts) d :=
  (passes_next h).trans h'

theorem Passes.eq_of_nil (h : c.Passes [] d) : d = c := by
  obtain ⟨behind, ahead, finish⟩ := d
  obtain ⟨ha, hb, hf⟩ := h
  cases hb
  cases hf
  cases ha
  rfl

theorem Passes.tail (h : c.Passes (l :: ts) d) : c.next.Passes ts d := by
  have hn := next_eq h.ahead
  rw [hn]
  exact ⟨rfl, h.behind, h.finish⟩

/-- On the way over two phrases there is a place between them. -/
theorem Passes.split (h : c.Passes (ts ++ us) e) :
    ∃ d, c.Passes ts d ∧ d.Passes us e ∧ d.ahead = us ++ e.ahead := by
  refine ⟨⟨lastSpan c.behind ts, us ++ e.ahead, c.finish⟩, ⟨?_, rfl, rfl⟩, ⟨rfl, ?_, ?_⟩, rfl⟩
  · rw [h.ahead, List.append_assoc]
  · rw [h.behind, lastSpan_append]
  · exact h.finish

theorem Passes.head (h : c.Passes (l :: ts) d) : c.ahead = l :: (ts ++ d.ahead) := h.ahead

/-- What was read since the first token of a phrase is the stretch of the phrase. -/
theorem Passes.since (h : c.Passes (l :: ts) d) : d.since c.span = stretch (l :: ts) := by
  rw [Cursor.since, span_eq h.head, h.behind]
  rfl

theorem Passes.since_of_ne_nil (h : c.Passes ts d) (hts : ts ≠ []) :
    d.since c.span = stretch ts := by
  obtain ⟨l, ls, rfl⟩ := List.exists_cons_of_ne_nil hts
  exact h.since

theorem Passes.at? (h : c.Passes (l :: ts) d) (ht : l.token = .mark m) : c.at? m = true :=
  at?_of_ahead h.head ht

theorem Passes.token? (h : c.Passes (l :: ts) d) : c.token? = some l.token := token?_eq h.head

end Cursor

open Cursor

theorem integer_sound {s : Span} (h : integer c = .ok ((n, s), d)) :
    ∃ ts, c.Passes ts d ∧ Integer ts n := by
  unfold integer at h
  dsimp only at h
  split at h
  · next ds ht =>
    split at h
    · next hn =>
      cases h
      by_cases hm : c.at? .minus = true
      · obtain ⟨s, ls, ha, hs⟩ := exists_of_at? hm
        rw [if_pos hm] at ht ⊢
        obtain ⟨l, ls', ha', hl⟩ := exists_of_token? ht
        rw [if_pos hm]
        exact ⟨_, .cons ha (passes_next ha'), .negative hs hl hn⟩
      · rw [if_neg hm] at ht ⊢
        obtain ⟨l, ls, ha, hl⟩ := exists_of_token? ht
        rw [if_neg hm]
        exact ⟨_, passes_next ha, .plain hl hn⟩
    · cases h
  · cases h

theorem integer_complete (hp : c.Passes ts d) (hi : Integer ts n) :
    ∃ s, integer c = .ok ((n, s), d) := by
  cases hi with
  | @plain l ds ht hn =>
    have hm : c.at? .minus = false := at?_ne hp.head (by rw [ht]; exact nofun)
    have hd : c.next = d := hp.tail.eq_of_nil.symm
    refine ⟨c.span.join c.span, ?_⟩
    unfold integer
    dsimp only
    rw [hm, if_neg Bool.false_ne_true, hp.token?, ht]
    dsimp only
    rw [if_pos hn, if_neg Bool.false_ne_true, hd]
  | @negative s l ds hs ht hn =>
    have hm : c.at? .minus = true := hp.at? hs
    have hd : c.next.next = d := hp.tail.tail.eq_of_nil.symm
    refine ⟨c.span.join c.next.span, ?_⟩
    unfold integer
    dsimp only
    rw [hm, if_pos rfl, hp.tail.token?, ht]
    dsimp only
    rw [if_pos hn, if_pos rfl, hd]

theorem Phrase.Integer.toCount (h : Integer ts n) (hn : 0 ≤ n) : Count ts n.toNat := by
  cases h with
  | plain ht hle => exact .plain ht hle
  | @negative s l ds hs ht hle =>
    have hz : decimalValue ds = 0 := by omega
    rw [hz]
    exact .nought hs ht hz

theorem Phrase.Count.toInteger (h : Count ts k) : Integer ts k := by
  cases h with
  | plain ht hn => exact .plain ht hn
  | @nought s l ds hs ht hn =>
    have hi := Integer.negative hs ht (by omega)
    rwa [hn] at hi

theorem count_sound {s : Span} (h : count c = .ok ((k, s), d)) :
    ∃ ts, c.Passes ts d ∧ Count ts k := by
  unfold count at h
  split at h
  · cases h
  · next hi =>
    split at h
    · cases h
    · next hn =>
      cases h
      obtain ⟨ts, hp, hi⟩ := integer_sound hi
      exact ⟨ts, hp, hi.toCount (Int.not_lt.1 hn)⟩

theorem count_complete (hp : c.Passes ts d) (hk : Count ts k) :
    ∃ s, count c = .ok ((k, s), d) := by
  obtain ⟨s, hi⟩ := integer_complete hp hk.toInteger
  refine ⟨s, ?_⟩
  unfold count
  rw [hi]
  dsimp only
  rw [if_neg (by omega), Int.toNat_natCast]

theorem length?_sound (h : length? c = .ok (k?, d)) : ∃ ts, c.Passes ts d ∧ Length ts k? := by
  unfold length? at h
  split at h
  · next hc =>
    obtain ⟨l, ls, ha, hl⟩ := exists_of_at? hc
    split at h
    · cases h
    · next hn =>
      cases h
      obtain ⟨ts, hp, hk⟩ := count_sound hn
      exact ⟨l :: ts, .cons ha hp, .given hl hk⟩
  · cases h
    exact ⟨[], .refl c, .absent⟩

/-- A length is read where none is given only if no colon follows. -/
theorem length?_complete (hp : c.Passes ts d) (hk : Length ts k?)
    (hd : ¬ Starts .colon d.ahead) : length? c = .ok (k?, d) := by
  unfold length?
  cases hk with
  | absent =>
    obtain rfl := hp.eq_of_nil
    rw [at?_eq_false_iff.2 hd, if_neg Bool.false_ne_true]
  | given hc hn =>
    obtain ⟨s, hn⟩ := count_complete hp.tail hn
    rw [if_pos (hp.at? hc), hn]

/-- A body goes on with the next tail. -/
theorem tails_eq (first? : Option Span) (e : Expr) : tails place first? e c =
    match tail? c with
    | .error err => .error err
    | .ok (none, _) => .ok (e, c)
    | .ok (some (.quantize steps clockwise), d) =>
      tails place first? (.quantized e steps clockwise (d.since place)) d
    | .ok (some (.rotate offset), d) => tails place first? (.rotate e offset) d
    | .ok (some (.evolve suffix), d) =>
      match first? with
      | some first => c.fail (.secondProgressive first)
      | none => tails place (some c.span) (.progressive suffix e) d := by
  rw [tails]
  split
  · next ht => simp only [ht]
  · next ht => simp only [ht]
  · next ht => simp only [ht]
  · next ht => simp only [ht]
  · next ht => cases first? <;> simp only [ht]

end Rhythm.Notation
