import Rhythm.Proofs.Store.Recency

/-! A store is a cache of bounded size, and the order of its entries does not show. -/
namespace Rhythm.Store

variable {κ α : Type} {s t : Store κ α} {h h' : List (Event κ α)} {k j : κ} {a : α}
  {c : Call κ α} {d e : Entry κ α} {capacity : Nat} {policy : Policy}

theorem Reordered.rfl : Reordered s s := ⟨.rfl, Eq.refl _, Eq.refl _, Eq.refl _⟩

theorem Reordered.symm (h : Reordered s t) : Reordered t s :=
  ⟨h.entries.symm, h.capacity.symm, h.policy.symm, h.clock.symm⟩

theorem Reordered.trans {u : Store κ α} (h : Reordered s t) (h' : Reordered t u) :
    Reordered s u :=
  ⟨h'.entries.trans h.entries, h'.capacity.trans h.capacity, h'.policy.trans h.policy,
    h'.clock.trans h.clock⟩

theorem sound_reordered (hs : s.Sound) (h : Reordered s t) : t.Sound where
  keys_nodup := (h.entries.map _).nodup_iff.2 hs.keys_nodup
  size_le := by
    rw [h.capacity, size, h.entries.length_eq]
    exact hs.size_le
  capacity_pos := h.capacity ▸ hs.capacity_pos

theorem victim?_reordered (hl : Policy.Stamped (·.usage) s.entries) (h : Reordered s t) :
    t.policy.victim? (·.usage) t.entries = s.policy.victim? (·.usage) s.entries := by
  rw [h.policy]
  exact Policy.victim?_perm hl h.entries

variable [DecidableEq κ]

theorem recorded_reordered (hr : Recorded h s) (ht : Reordered s t) : Recorded h t where
  clock_le := ht.clock ▸ hr.clock_le
  stamp_le := by
    intro e he
    rw [ht.clock]
    exact hr.stamp_le e (ht.entries.mem_iff.1 he)
  stamped := by
    intro e he e' he'
    exact hr.stamped e (ht.entries.mem_iff.1 he) e' (ht.entries.mem_iff.1 he')
  order := by
    intro e he e' he'
    exact hr.order e (ht.entries.mem_iff.1 he) e' (ht.entries.mem_iff.1 he')
  hits := by
    intro e he
    exact hr.hits e (ht.entries.mem_iff.1 he)

theorem find?_reordered (hs : s.Sound) (h : Reordered s t) (k : κ) : t.find? k = s.find? k := by
  apply Option.ext
  intro e
  rw [find?_eq_some_iff (sound_reordered hs h).keys_nodup, find?_eq_some_iff hs.keys_nodup,
    h.entries.mem_iff]

theorem reordered_remove (h : Reordered s t) (k : κ) : Reordered (s.remove k) (t.remove k) :=
  ⟨h.entries.filter _, h.capacity, h.policy, h.clock⟩

theorem crowded_reordered (hs : s.Sound) (h : Reordered s t) (k : κ) :
    t.crowded k = s.crowded k := by
  unfold crowded contains size
  rw [find?_reordered hs h k, h.capacity, h.entries.length_eq]

theorem reordered_evict (hl : Policy.Stamped (·.usage) s.entries) (h : Reordered s t) :
    t.evict.1 = s.evict.1 ∧ Reordered s.evict.2 t.evict.2 := by
  have hv := victim?_reordered hl h
  cases hs : s.policy.victim? (·.usage) s.entries with
  | none =>
    rw [evict_of_no_victim hs, evict_of_no_victim (hv.trans hs)]
    exact ⟨Eq.refl _, h⟩
  | some e =>
    rw [evict_of_victim? hs, evict_of_victim? (hv.trans hs)]
    exact ⟨Eq.refl _, reordered_remove h _⟩

theorem reordered_put (h : Reordered s t) (k : κ) (a : α) : Reordered (s.put k a) (t.put k a) where
  entries := by
    simp only [put, h.clock]
    exact (reordered_remove h k).entries.append_right _
  capacity := h.capacity
  policy := h.policy
  clock := congrArg (· + 1) h.clock

theorem reordered_insert (hs : s.Sound) (hl : Policy.Stamped (·.usage) s.entries)
    (h : Reordered s t) (k : κ) (a : α) :
    (t.insert k a).1 = (s.insert k a).1 ∧ Reordered (s.insert k a).2 (t.insert k a).2 := by
  have hct := crowded_reordered hs h k
  cases hc : s.crowded k with
  | true =>
    obtain ⟨hfst, hsnd⟩ := reordered_evict hl h
    rw [insert_of_crowded hc, insert_of_crowded (hct.trans hc)]
    exact ⟨hfst, reordered_put hsnd k a⟩
  | false =>
    rw [insert_of_not_crowded hc, insert_of_not_crowded (hct.trans hc)]
    exact ⟨Eq.refl _, reordered_put h k a⟩

theorem reordered_access {β : Type} (hs : s.Sound) (h : Reordered s t) (k : κ) (f : α → β × α) :
    Reordered (s.access k f).2 (t.access k f).2 := by
  have hf := find?_reordered hs h k
  cases hd : s.find? k with
  | none =>
    rw [access_snd_of_not_contains (contains_eq_false_iff.2 hd),
      access_snd_of_not_contains (contains_eq_false_iff.2 (hf.trans hd))]
    exact ⟨h.entries, h.capacity, h.policy, congrArg (· + 1) h.clock⟩
  | some e =>
    rw [access_snd_of_find? hd, access_snd_of_find? (hf.trans hd), h.clock]
    exact ⟨h.entries.map _, h.capacity, h.policy, congrArg (· + 1) h.clock⟩

theorem reordered_after (hs : s.Sound) (hl : Policy.Stamped (·.usage) s.entries)
    (h : Reordered s t) (c : Call κ α) : Reordered (s.after c) (t.after c) := by
  cases c with
  | insert k a => exact (reordered_insert hs hl h k a).2
  | get k f => exact reordered_access hs h k _
  | remove k => exact reordered_remove h k
  | clear => exact ⟨.rfl, h.capacity, h.policy, h.clock⟩
  | peek k | usage k => exact h
  | change f => exact ⟨h.entries.map _, h.capacity, h.policy, h.clock⟩

theorem run_sound (hr : Run capacity policy h s) : s.Sound := by
  induction hr with
  | empty => exact sound_empty capacity policy
  | call c _ ht ih => exact sound_reordered (sound_after ih c) ht

theorem run_recorded (hr : Run capacity policy h s) : Recorded h s := by
  induction hr with
  | empty => exact recorded_empty capacity policy
  | call c hr ht ih => exact recorded_reordered (recorded_after (run_sound hr) ih c) ht

theorem run_settings (hr : Run capacity policy h s) :
    s.capacity = max capacity 1 ∧ s.policy = policy := by
  induction hr with
  | empty => exact ⟨Eq.refl _, Eq.refl _⟩
  | call c _ ht ih => rwa [ht.capacity, ht.policy, capacity_after, policy_after]

/-- The calls alone decide what a store holds, up to the order of its entries. -/
theorem run_reordered (hr : Run capacity policy h s) (hr' : Run capacity policy h' t)
    (hh : h'.map Event.call = h.map Event.call) : Reordered s t := by
  induction hr generalizing h' t with
  | empty =>
    obtain rfl := List.map_eq_nil_iff.1 hh
    cases hr'
    exact .rfl
  | call c hr ht ih =>
    cases hr' with
    | empty => cases hh
    | call c' hr' ht' =>
      obtain ⟨rfl, htail⟩ := List.cons.inj hh
      have hs := run_sound hr
      have hm := reordered_after hs (run_recorded hr).stamped (ih hr' htail) c'
      exact ht.symm.trans (hm.trans ht')

theorem sooner_of_before (hr : Recorded h s) (hd : d ∈ s.entries) (he : e ∈ s.entries)
    (hb : policy.before d.usage e.usage = true) : Sooner policy h d.key e.key := by
  have ho := hr.order d hd e he
  cases policy with
  | lru => exact ho.1 (Policy.before_lru.1 hb)
  | lfu =>
    rw [Policy.before_lfu, hr.hits d hd, hr.hits e he, ho] at hb
    exact hb

/-- The key that has to make way is another one than the new one, and of all kept keys it is the
one that has to go soonest. -/
theorem insert_evicts (hr : Run capacity policy h s) {gone : κ}
    (hg : (s.insert k a).1 = some gone) :
    gone ≠ k ∧ s.contains gone = true ∧ (s.insert k a).2.contains gone = false ∧
      ∀ j, s.contains j = true → j ≠ gone → Sooner policy h gone j := by
  have hs := run_sound hr
  cases hc : s.crowded k with
  | false =>
    rw [insert_of_not_crowded hc] at hg
    cases hg
  | true =>
    obtain ⟨v, hv, hgone⟩ := insert_fst_of_crowded hs hc a
    obtain rfl := Option.some.inj (hg.symm.trans hgone)
    have hm := (Policy.victim?_spec hv).1
    have hvk : v.key ≠ k := by
      rintro rfl
      have hnew := (crowded_iff.1 hc).1
      rw [contains_iff.2 (List.mem_map_of_mem hm)] at hnew
      cases hnew
    refine ⟨hvk, contains_iff.2 (List.mem_map_of_mem hm), ?_, ?_⟩
    · rw [contains_eq_false_iff, find?_insert, if_neg hvk, if_pos hgone]
    · intro j hj hne
      obtain ⟨e, he, rfl⟩ := List.mem_map.1 (contains_iff.1 hj)
      apply sooner_of_before (run_recorded hr) hm he
      rw [← (run_settings hr).2]
      exact Policy.victim?_before (run_recorded hr).stamped hv he (fun hev => hne (by rw [hev]))

theorem insert_evicts_iff (hr : Run capacity policy h s) (k : κ) (a : α) :
    (s.insert k a).1.isSome = true ↔ s.contains k = false ∧ s.size = max capacity 1 := by
  have hs := run_sound hr
  rw [← (run_settings hr).1]
  constructor
  · intro hi
    cases hc : s.crowded k with
    | false => simp [insert_of_not_crowded hc] at hi
    | true =>
      obtain ⟨hnew, hf⟩ := crowded_iff.1 hc
      exact ⟨hnew, Nat.le_antisymm hs.size_le hf⟩
  · rintro ⟨hnew, hf⟩
    obtain ⟨v, -, hg⟩ := insert_fst_of_crowded hs (crowded_iff.2 ⟨hnew, Nat.le_of_eq hf.symm⟩) a
    rw [hg, Option.isSome_some]

/-- The store never holds more than its bound. A new key evicts exactly one other key when the store
is full, namely the one that the history of calls picks, whatever the order of the entries; all
other entries stay as they are. No counter exceeds the number of calls. -/
theorem bounded_cache (hr : Run capacity policy h s) (k : κ) (a : α) :
    s.size ≤ max capacity 1 ∧
    ((s.insert k a).1.isSome = true ↔ s.contains k = false ∧ s.size = max capacity 1) ∧
    (∀ gone, (s.insert k a).1 = some gone →
      gone ≠ k ∧ s.contains gone = true ∧ (s.insert k a).2.contains gone = false ∧
        ∀ j, s.contains j = true → j ≠ gone → Sooner policy h gone j) ∧
    (s.insert k a).2.peek? k = some a ∧
    (∀ j, j ≠ k → (s.insert k a).1 ≠ some j → (s.insert k a).2.find? j = s.find? j) ∧
    (∀ h' t, Run capacity policy h' t → h'.map Event.call = h.map Event.call →
      (t.insert k a).1 = (s.insert k a).1) ∧
    s.clock ≤ h.length ∧
    (∀ e ∈ s.entries, e.usage.lastAccess ≤ h.length ∧ e.usage.hits ≤ h.length) := by
  have hs := run_sound hr
  have hrec := run_recorded hr
  refine ⟨?_, insert_evicts_iff hr k a, fun gone hg => insert_evicts hr hg, ?_, ?_, ?_,
    hrec.clock_le, ?_⟩
  · rw [← (run_settings hr).1]
    exact hs.size_le
  · rw [peek?_insert, if_pos (Eq.refl k)]
  · intro j hj hg
    rw [find?_insert, if_neg hj, if_neg hg]
  · intro h' t hr' hh
    exact (reordered_insert hs hrec.stamped (run_reordered hr hr' hh) k a).1
  · intro e he
    refine ⟨Nat.le_trans (hrec.stamp_le e he) hrec.clock_le, ?_⟩
    rw [hrec.hits e he]
    exact timesGot_le e.key h

/-- Of two keys the one that was not got since goes. -/
theorem bounded_cache_of_two :
    ∃ (h : List (Event Nat Nat)) (s : Store Nat Nat), Run 2 .lru h s ∧
      (s.insert 3 30).1 = some 2 ∧ Sooner .lru h 2 1 ∧ (s.insert 3 30).2.peek? 3 = some 30 := by
  have he : Run 2 .lru [] (.empty 2 .lru : Store Nat Nat) := .empty
  have hr := ((he.call (.insert 1 10) .rfl).call (.insert 2 20) .rfl).call (.get 1 id) .rfl
  obtain ⟨-, -, hg, hp, -⟩ := bounded_cache hr 3 30
  exact ⟨_, _, hr, by decide, (hg 2 (by decide)).2.2.2 1 (by decide) (by decide), hp⟩

end Rhythm.Store
