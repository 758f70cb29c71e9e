import Mathlib.Data.List.Forall2
import Rhythm.Proofs.Store.Lookup

/-! Two stores that differ in their values alone go through the same operations alike. -/
namespace Rhythm

variable {κ α β γ : Type} {R : α → β → Prop}

/-- Entries of one key and one use, with related values. -/
structure Entry.Alike (R : α → β → Prop) (d : Entry κ α) (e : Entry κ β) : Prop where
  key_eq : d.key = e.key
  usage_eq : d.usage = e.usage
  value : R d.value e.value

/-- Options that are related are both empty, or have related values. -/
theorem rel_cases {o : Option α} {o' : Option β} (h : Option.Rel R o o') :
    (o = none ∧ o' = none) ∨ ∃ a b, o = some a ∧ o' = some b ∧ R a b := by
  cases h with
  | none => exact .inl ⟨rfl, rfl⟩
  | some h => exact .inr ⟨_, _, rfl, rfl, h⟩

namespace Store

/-- Stores of the same keys and uses, in the same order, with related values. -/
structure Alike (R : α → β → Prop) (s : Store κ α) (t : Store κ β) : Prop where
  entries : List.Forall₂ (Entry.Alike R) s.entries t.entries
  capacity_eq : s.capacity = t.capacity
  policy_eq : s.policy = t.policy
  clock_eq : s.clock = t.clock

variable {s : Store κ α} {t : Store κ β} {l : List (Entry κ α)} {m : List (Entry κ β)}

theorem alike_empty (capacity : Nat) (policy : Policy) :
    Alike R (empty capacity policy : Store κ α) (empty capacity policy : Store κ β) :=
  ⟨.nil, rfl, rfl, rfl⟩

theorem map_key_alike (h : List.Forall₂ (Entry.Alike R) l m) :
    l.map (·.key) = m.map (·.key) := by
  induction h with
  | nil => rfl
  | cons hentry _ ih => rw [List.map_cons, List.map_cons, hentry.key_eq, ih]

theorem Alike.keys_eq (h : Alike R s t) : s.keys = t.keys := map_key_alike h.entries

theorem Alike.size_eq (h : Alike R s t) : s.size = t.size := h.entries.length_eq

theorem Alike.tick (h : Alike R s t) : Alike R s.tick t.tick :=
  ⟨h.entries, h.capacity_eq, h.policy_eq, congrArg (· + 1) h.clock_eq⟩

theorem Alike.mapValues {f : α → α} {g : β → β} (h : Alike R s t)
    (hf : ∀ a b, R a b → R (f a) (g b)) : Alike R (s.mapValues f) (t.mapValues g) := by
  refine ⟨?_, h.capacity_eq, h.policy_eq, h.clock_eq⟩
  unfold Store.mapValues
  rw [List.forall₂_map_left_iff, List.forall₂_map_right_iff]
  refine h.entries.imp ?_
  intro d e hentry
  exact ⟨hentry.key_eq, hentry.usage_eq, hf _ _ hentry.value⟩

theorem victim?_alike (policy : Policy) (h : List.Forall₂ (Entry.Alike R) l m) :
    Option.Rel (Entry.Alike R) (policy.victim? (·.usage) l) (policy.victim? (·.usage) m) := by
  induction h with
  | nil => exact .none
  | cons hentry _ ih =>
    rw [Policy.victim?, Policy.victim?]
    rcases rel_cases ih with ⟨hv, hw⟩ | ⟨v, w, hv, hw, hvictim⟩
    · rw [hv, hw]
      exact .some hentry
    · rw [hv, hw]
      dsimp only
      rw [hvictim.usage_eq, hentry.usage_eq]
      split
      · exact .some hvictim
      · exact .some hentry

variable [DecidableEq κ]

theorem find?_alike (h : List.Forall₂ (Entry.Alike R) l m) (k : κ) :
    Option.Rel (Entry.Alike R) (l.find? fun e => e.key = k) (m.find? fun e => e.key = k) := by
  induction h with
  | nil => exact .none
  | @cons d e _ _ hentry _ ih =>
    rw [List.find?_cons, List.find?_cons, hentry.key_eq]
    cases decide (e.key = k) with
    | true => exact .some hentry
    | false => exact ih

theorem Alike.find? (h : Alike R s t) (k : κ) :
    Option.Rel (Entry.Alike R) (s.find? k) (t.find? k) := find?_alike h.entries k

theorem Alike.contains_eq (h : Alike R s t) (k : κ) : s.contains k = t.contains k := by
  rcases rel_cases (h.find? k) with ⟨hd, he⟩ | ⟨d, e, hd, he, -⟩
  · rw [contains, contains, hd, he]
    rfl
  · rw [contains, contains, hd, he]
    rfl

theorem Alike.usage?_eq (h : Alike R s t) (k : κ) : s.usage? k = t.usage? k := by
  rcases rel_cases (h.find? k) with ⟨hd, he⟩ | ⟨d, e, hd, he, hentry⟩
  · rw [usage?, usage?, hd, he]
    rfl
  · rw [usage?, usage?, hd, he]
    exact congrArg some hentry.usage_eq

theorem Alike.peek? (h : Alike R s t) (k : κ) : Option.Rel R (s.peek? k) (t.peek? k) := by
  rcases rel_cases (h.find? k) with ⟨hd, he⟩ | ⟨d, e, hd, he, hentry⟩
  · rw [Store.peek?, Store.peek?, hd, he]
    exact .none
  · rw [Store.peek?, Store.peek?, hd, he]
    exact .some hentry.value

theorem Alike.remove (h : Alike R s t) (k : κ) : Alike R (s.remove k) (t.remove k) := by
  refine ⟨?_, h.capacity_eq, h.policy_eq, h.clock_eq⟩
  refine List.rel_filter ?_ h.entries
  intro d e hentry
  dsimp only
  rw [hentry.key_eq]

theorem Alike.evict (h : Alike R s t) :
    s.evict.1 = t.evict.1 ∧ Alike R s.evict.2 t.evict.2 := by
  rcases rel_cases (victim?_alike s.policy h.entries) with ⟨hv, hw⟩ | ⟨v, w, hv, hw, hentry⟩
  · rw [evict_of_no_victim hv, evict_of_no_victim (h.policy_eq ▸ hw)]
    exact ⟨rfl, h⟩
  · rw [evict_of_victim? hv, evict_of_victim? (h.policy_eq ▸ hw), hentry.key_eq]
    exact ⟨rfl, h.remove _⟩

theorem Alike.put (h : Alike R s t) (k : κ) {a : α} {b : β} (hab : R a b) :
    Alike R (s.put k a) (t.put k b) := by
  refine ⟨?_, h.capacity_eq, h.policy_eq, congrArg (· + 1) h.clock_eq⟩
  refine List.rel_append (h.remove k).entries (.cons ⟨rfl, ?_, hab⟩ .nil)
  unfold entered
  rw [h.clock_eq]

theorem Alike.insert (h : Alike R s t) (k : κ) {a : α} {b : β} (hab : R a b) :
    (s.insert k a).1 = (t.insert k b).1 ∧ Alike R (s.insert k a).2 (t.insert k b).2 := by
  have hcrowded : s.crowded k = t.crowded k := by
    unfold crowded
    rw [h.contains_eq, h.capacity_eq, h.size_eq]
  cases hc : s.crowded k with
  | false =>
    rw [insert_of_not_crowded hc, insert_of_not_crowded (hcrowded ▸ hc)]
    exact ⟨rfl, h.put k hab⟩
  | true =>
    obtain ⟨hkey, hleft⟩ := h.evict
    rw [insert_of_crowded hc, insert_of_crowded (hcrowded ▸ hc)]
    exact ⟨hkey, hleft.put k hab⟩

/-- A look-up that reads and changes related values alike. -/
theorem Alike.access (h : Alike R s t) (k : κ) {f : α → γ × α} {g : β → γ × β}
    (hf : ∀ a b, R a b → (f a).1 = (g b).1 ∧ R (f a).2 (g b).2) :
    (s.access k f).1 = (t.access k g).1 ∧ Alike R (s.access k f).2 (t.access k g).2 := by
  rcases rel_cases (h.find? k) with ⟨hd, he⟩ | ⟨d, e, hd, he, hentry⟩
  · rw [access_fst, access_fst, access_snd_of_not_contains (contains_eq_false_iff.2 hd),
      access_snd_of_not_contains (contains_eq_false_iff.2 he), Store.peek?, Store.peek?, hd, he]
    exact ⟨rfl, h.tick⟩
  · obtain ⟨hanswer, hvalue⟩ := hf _ _ hentry.value
    rw [access_fst, access_fst, access_snd_of_find? hd, access_snd_of_find? he, Store.peek?,
      Store.peek?, hd, he]
    refine ⟨congrArg some hanswer, ?_, h.capacity_eq, h.policy_eq, congrArg (· + 1) h.clock_eq⟩
    dsimp only
    rw [List.forall₂_map_left_iff, List.forall₂_map_right_iff]
    refine h.entries.imp ?_
    intro d' e' hother
    rw [hother.key_eq]
    split
    · refine ⟨hentry.key_eq, ?_, hvalue⟩
      unfold accessed
      rw [hentry.usage_eq, h.clock_eq]
    · exact hother

end Store

end Rhythm
