import Rhythm.Proofs.Store.Lookup
import Rhythm.Proofs.Store.Victim

/-! A store lists every key once and keeps to its capacity. -/
namespace Rhythm.Store

variable {κ α β : Type} {s : Store κ α} {k : κ} {a : α} {e : Entry κ α}

structure Sound (s : Store κ α) : Prop where
  keys_nodup : s.keys.Nodup
  size_le : s.size ≤ s.capacity
  capacity_pos : 0 < s.capacity

theorem size_eq (s : Store κ α) : s.size = s.keys.length := by simp [size, keys]

theorem eq_of_mem_of_key_eq {d : Entry κ α} (hs : s.Sound) (hd : d ∈ s.entries)
    (he : e ∈ s.entries) (hk : d.key = e.key) : d = e :=
  List.inj_on_of_nodup_map hs.keys_nodup hd he hk

theorem sound_of_keys_eq {t : Store κ β} (h : s.Sound) (hk : t.keys = s.keys)
    (hc : t.capacity = s.capacity) : t.Sound where
  keys_nodup := hk ▸ h.keys_nodup
  size_le := by
    rw [size_eq, hk, hc, ← size_eq]
    exact h.size_le
  capacity_pos := hc ▸ h.capacity_pos

theorem sound_empty (capacity : Nat) (policy : Policy) :
    (Store.empty capacity policy : Store κ α).Sound where
  keys_nodup := List.nodup_nil
  size_le := Nat.zero_le _
  capacity_pos := by simp only [empty]; omega

theorem sound_clear (h : s.Sound) : s.clear.Sound where
  keys_nodup := List.nodup_nil
  size_le := Nat.zero_le _
  capacity_pos := h.capacity_pos

theorem keys_tick (s : Store κ α) : s.tick.keys = s.keys := rfl

theorem keys_mapValues (s : Store κ α) (f : α → α) : (s.mapValues f).keys = s.keys := by
  simp [keys, mapValues]

theorem sound_mapValues (h : s.Sound) (f : α → α) : (s.mapValues f).Sound :=
  sound_of_keys_eq h (keys_mapValues s f) rfl

/-- A full store has an entry to drop. -/
theorem exists_victim (h : s.Sound) (hf : s.capacity ≤ s.size) :
    ∃ e, s.policy.victim? (·.usage) s.entries = some e := by
  cases hv : s.policy.victim? (·.usage) s.entries with
  | some e => exact ⟨e, rfl⟩
  | none =>
    rw [Policy.victim?_eq_none_iff] at hv
    have hp := h.capacity_pos
    simp only [size, hv, List.length_nil] at hf
    omega

variable [DecidableEq κ]

theorem keys_access (s : Store κ α) (k : κ) (f : α → β × α) : (s.access k f).2.keys = s.keys := by
  cases h : s.find? k with
  | none => rw [access_snd_of_not_contains (contains_eq_false_iff.2 h), keys_tick]
  | some e =>
    rw [access_snd_of_find? h]
    simp only [keys, List.map_map]
    apply List.map_congr_left
    intro d _
    by_cases hd : d.key = k
    · simp [hd, accessed, find?_key h]
    · simp [hd]

theorem capacity_access (s : Store κ α) (k : κ) (f : α → β × α) :
    (s.access k f).2.capacity = s.capacity := by
  cases h : s.find? k with
  | none => rw [access_snd_of_not_contains (contains_eq_false_iff.2 h), tick]
  | some e => rw [access_snd_of_find? h, tick]

theorem sound_access (h : s.Sound) (k : κ) (f : α → β × α) : (s.access k f).2.Sound :=
  sound_of_keys_eq h (keys_access s k f) (capacity_access s k f)

theorem keys_remove_sublist (s : Store κ α) (k : κ) : (s.remove k).keys.Sublist s.keys :=
  List.filter_sublist.map _

theorem not_mem_keys_remove (s : Store κ α) (k : κ) : k ∉ (s.remove k).keys := by
  simp [keys, remove]

theorem size_remove_le (s : Store κ α) (k : κ) : (s.remove k).size ≤ s.size := by
  rw [size_eq, size_eq]
  exact (keys_remove_sublist s k).length_le

theorem size_remove_lt (h : s.contains k = true) : (s.remove k).size < s.size := by
  obtain ⟨e, he, hk⟩ := List.mem_map.1 (contains_iff.1 h)
  exact List.length_filter_lt_length_iff_exists.2 ⟨e, he, by simpa using hk⟩

theorem sound_remove (h : s.Sound) (k : κ) : (s.remove k).Sound where
  keys_nodup := (keys_remove_sublist s k).nodup h.keys_nodup
  size_le := Nat.le_trans (size_remove_le s k) h.size_le
  capacity_pos := h.capacity_pos

theorem size_put (s : Store κ α) (k : κ) (a : α) : (s.put k a).size = (s.remove k).size + 1 := by
  simp [put, size]

theorem sound_put (h : s.Sound) (hs : s.contains k = true ∨ s.size < s.capacity) :
    (s.put k a).Sound where
  keys_nodup := by
    have hk : (s.put k a).keys = (s.remove k).keys ++ [k] := by simp [put, keys, entered]
    rw [hk, List.nodup_append]
    refine ⟨(sound_remove h k).keys_nodup, List.nodup_singleton _, ?_⟩
    intro x hx y hy
    obtain rfl := List.mem_singleton.1 hy
    rintro rfl
    exact not_mem_keys_remove s x hx
  size_le := by
    have hc : (s.put k a).capacity = s.capacity := rfl
    rw [size_put, hc]
    rcases hs with hs | hs
    · exact Nat.le_trans (size_remove_lt hs) h.size_le
    · exact Nat.le_trans (Nat.succ_le_succ (size_remove_le s k)) hs
  capacity_pos := h.capacity_pos

theorem crowded_iff : s.crowded k = true ↔ s.contains k = false ∧ s.capacity ≤ s.size := by
  simp [crowded]

/-- After an eviction there is room for one more. -/
theorem size_evict_lt (h : s.Sound) (hf : s.capacity ≤ s.size) : s.evict.2.size < s.capacity := by
  obtain ⟨e, he⟩ := exists_victim h hf
  rw [evict_of_victim? he]
  have hm := (Policy.victim?_spec he).1
  exact Nat.lt_of_lt_of_le (size_remove_lt (contains_iff.2 (List.mem_map_of_mem hm))) h.size_le

theorem capacity_evict (s : Store κ α) : s.evict.2.capacity = s.capacity := by
  unfold evict
  split <;> rfl

theorem sound_evict (h : s.Sound) : s.evict.2.Sound := by
  unfold evict
  split
  · exact h
  · exact sound_remove h _

theorem sound_insert (h : s.Sound) (k : κ) (a : α) : (s.insert k a).2.Sound := by
  cases hc : s.crowded k with
  | true =>
    rw [insert_of_crowded hc]
    have hf := (crowded_iff.1 hc).2
    exact sound_put (sound_evict h) (.inr (by rw [capacity_evict]; exact size_evict_lt h hf))
  | false =>
    rw [insert_of_not_crowded hc]
    apply sound_put h
    by_cases hk : s.contains k = true
    · exact .inl hk
    · right
      by_contra hf
      rw [crowded_iff.2 ⟨by simpa using hk, by omega⟩] at hc
      cases hc

/-- Inserting evicts exactly when the key is new and the store is full, and then the victim. -/
theorem insert_fst_of_crowded (h : s.Sound) (hc : s.crowded k = true) (a : α) :
    ∃ e, s.policy.victim? (·.usage) s.entries = some e ∧ (s.insert k a).1 = some e.key := by
  obtain ⟨e, he⟩ := exists_victim h (crowded_iff.1 hc).2
  exact ⟨e, he, by rw [insert_of_crowded hc, evict_of_victim? he]⟩

/-- An eviction comes to the same as dropping the key first, for then there is room. -/
theorem insert_of_evicted {j : κ} (h : s.Sound) (hj : (s.insert k a).1 = some j) :
    (s.insert k a).2 = ((s.remove j).insert k a).2 := by
  cases hc : s.crowded k with
  | false =>
    rw [insert_of_not_crowded hc] at hj
    cases hj
  | true =>
    obtain ⟨e, he, hev⟩ := insert_fst_of_crowded h hc a
    obtain rfl : j = e.key := Option.some.inj (hj.symm.trans hev)
    have hm : s.contains e.key = true :=
      contains_iff.2 (List.mem_map_of_mem (Policy.victim?_spec he).1)
    have hroom : (s.remove e.key).crowded k = false := by
      rw [← Bool.not_eq_true, crowded_iff]
      rintro ⟨-, hf⟩
      have hlt := Nat.lt_of_lt_of_le (size_remove_lt hm) h.size_le
      exact absurd hf (Nat.not_le.2 hlt)
    rw [insert_of_crowded hc, insert_of_not_crowded hroom, evict_of_victim? he]

end Rhythm.Store
