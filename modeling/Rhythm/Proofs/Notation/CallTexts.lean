import Rhythm.Proofs.Notation.Numerals

/-! The texts of generator calls, by themselves and with a transformation after them. -/
namespace Rhythm.Notation

open Text Phrase Rhythm.Notation.Expr

variable {family : Family} {args : List Int} {target : Nat} {c : Char} {text : List Char}
  {ls : List Lexeme}

/-- A family called with arguments. -/
def callText (family : Family) (args : List Int) : List Char :=
  family.letter :: '(' :: joined ',' (args.map decimal) ++ [')']

/-- A call that moves to a target, in the manner of its own family. -/
def transformText (family : Family) (args : List Int) (target : Nat) : List Char :=
  callText family args ++ '>' :: decimal target

example : transformText .euclidean [3, 8, -1] 5 = "E(3,8,-1)>5".toList := by decide +kernel

/-- The numbers of the call are ones that the notation can tell, and the family takes them. -/
structure Callable (family : Family) (args : List Int) : Prop where
  takes : family.Takes args
  bounded : ∀ n ∈ args, n.natAbs ≤ maxInteger

theorem mem_joined {texts : List (List Char)} (h : c ∈ joined ',' texts) :
    c = ',' ∨ ∃ text ∈ texts, c ∈ text := by
  induction texts with
  | nil => cases h
  | cons text texts ih =>
    cases texts with
    | nil => exact .inr ⟨text, List.mem_cons_self, h⟩
    | cons text' texts =>
      rw [joined, List.mem_append, List.mem_cons] at h
      · rcases h with h | h | h
        · exact .inr ⟨text, List.mem_cons_self, h⟩
        · exact .inl h
        · rcases ih h with h | ⟨t, ht, h⟩
          · exact .inl h
          · exact .inr ⟨t, List.mem_cons_of_mem _ ht, h⟩
      · simp

theorem bar_not_mem_decimal (n : Int) : '|' ∉ decimal n := by
  have hdigits : '|' ∉ Nat.toDigits 10 n.natAbs := by
    intro h
    exact absurd (Nat.isDigit_of_mem_toDigits (by decide) (by decide) h) (by decide)
  intro h
  rw [decimal] at h
  split at h
  · rcases List.mem_cons.1 h with h | h
    · exact absurd h (by decide)
    · exact hdigits h
  · exact hdigits h

theorem bar_not_mem_callText (family : Family) (args : List Int) : '|' ∉ callText family args := by
  intro h
  simp only [callText, List.cons_append, List.mem_cons, List.mem_append, List.not_mem_nil,
    or_false] at h
  rcases h with h | h | h | h
  · exact absurd h (by cases family <;> decide)
  · exact absurd h (by decide)
  · rcases mem_joined h with h | ⟨text, ht, h⟩
    · exact absurd h (by decide)
    · obtain ⟨n, -, rfl⟩ := List.mem_map.1 ht
      exact bar_not_mem_decimal n h
  · exact absurd h (by decide)

theorem bar_not_mem_transformText (family : Family) (args : List Int) (target : Nat) :
    '|' ∉ transformText family args target := by
  intro h
  rcases List.mem_append.1 h with h | h
  · exact bar_not_mem_callText family args h
  · rcases List.mem_cons.1 h with h | h
    · exact absurd h (by decide)
    · exact bar_not_mem_decimal _ h

theorem cuts_callText (family : Family) (args : List Int) (span : Span) :
    Cuts (callText family args) (Expr.generator family args span).tokens := by
  have h := cuts_generator family args span
  rw [Expr.text] at h
  exact h

theorem call_of_tokens (h : Callable family args)
    (hl : ls.map (·.token) = (Expr.generator family args ⟨0, 0⟩).tokens) :
    ∃ span, ∀ rest, Primary .anywhere ls rest (.generator family args span) := by
  have hne : args ≠ [] := List.ne_nil_of_length_pos (by have := h.takes.length_ge; omega)
  rw [tokens, List.cons_append, List.cons_append] at hl
  obtain ⟨w, _, rfl, hw, hl⟩ := List.map_eq_cons_iff.1 hl
  obtain ⟨l, _, rfl, hopen, hl⟩ := List.map_eq_cons_iff.1 hl
  obtain ⟨us, _, rfl, hu, hl⟩ := List.map_eq_append_iff.1 hl
  obtain ⟨r, rfl, hclose⟩ := List.map_eq_singleton_iff.1 hl
  have hcall : Call family (l :: (us ++ [r])) (.generator family args) :=
    .generator hopen (integers_of_tokens hne h.bounded hu) hclose h.takes
  exact ⟨_, fun rest => .call hw family.ofLetter?_letter hcall⟩

theorem parse_of_segment {ts : List Token} {e : Expr} (hbar : '|' ∉ text)
    (hcuts : tokenize 0 text = .ok ls ∧ ls.map (·.token) = ts) (h : Segment .anywhere ls e) :
    parse text = .ok ⟨e, []⟩ := by
  rw [parse_single hbar, (parseExpr_eq_ok_iff text e).2 ⟨ls, hcuts.1, h⟩]
  rfl

theorem parse_callText (h : Callable family args) :
    ∃ span, parse (callText family args) = .ok ⟨.generator family args span, []⟩ := by
  obtain ⟨ls, hcut, hl⟩ := (cuts_callText family args ⟨0, 0⟩).tokenize 0
  obtain ⟨span, hcall⟩ := call_of_tokens h hl
  have hbody : Body .anywhere ls [] false (.generator family args span) := by
    refine .chain (.one (.term (.primary (hcall [])))) ?_
    intro l ls hnil
    cases hnil
  exact ⟨span, parse_of_segment (bar_not_mem_callText family args) ⟨hcut, hl⟩ (.bare hbody)⟩

theorem parse_transformText (h : Callable family args) (ht : target ≤ maxInteger) :
    ∃ span, parse (transformText family args target) =
      .ok ⟨.progressive (.transform target none) (.generator family args span), []⟩ := by
  have htail : Cuts ('>' :: decimal target) (.mark .greater :: numberTokens target) :=
    cuts_mark .greater (cuts_decimal target)
  obtain ⟨ls, hcut, hl⟩ :=
    ((cuts_callText family args ⟨0, 0⟩).append htail (stops_mark .greater _)).tokenize 0
  obtain ⟨us, _, rfl, hu, hv⟩ := List.map_eq_append_iff.1 hl
  obtain ⟨l, ms, rfl, hgreater, hm⟩ := List.map_eq_cons_iff.1 hv
  obtain ⟨span, hcall⟩ := call_of_tokens h hu
  have hbody : Body .anywhere us (l :: ms ++ []) false (.generator family args span) := by
    refine .chain (.one (.term (.primary (hcall _)))) ?_
    intro l' ls' heq hplus
    cases heq
    rw [hgreater] at hplus
    cases hplus
  have hwhole := Body.progressive hbody (.transform hgreater (count_of_tokens ht hm))
  exact ⟨span, parse_of_segment (bar_not_mem_transformText family args target) ⟨hcut, hl⟩
    (.bare hwhole)⟩

/-- Only a random call depends on the seed and on its place. -/
theorem generated_of_ne_random (hf : family ≠ .random) (seed seed' : UInt64) (args : List Int)
    (span span' : Span) :
    generated seed family args span = generated seed' family args span' := by
  cases family with
  | random => exact absurd rfl hf
  | _ => rfl

theorem denotes_callText (h : Callable family args) (hf : family ≠ .random) :
    Denotes (callText family args) (generated 0 family args ⟨0, 0⟩) := by
  obtain ⟨span, hp⟩ := parse_callText h
  refine ⟨_, hp, rfl, ?_⟩
  intro seed
  rw [generated_of_ne_random hf 0 seed args ⟨0, 0⟩ span]
  rfl

end Rhythm.Notation
