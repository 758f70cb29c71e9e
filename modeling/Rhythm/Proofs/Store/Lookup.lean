import Mathlib.Data.List.Nodup
import Rhythm.Proofs.Store.Victim

/-! A store as a map: what every operation does to the entry under a key. -/
namespace Rhythm.Store

variable {κ α β : Type} [DecidableEq κ] {s : Store κ α} {k j : κ} {e : Entry κ α}

theorem find?_key (h : s.find? k = some e) : e.key = k := by
  simpa using List.find?_some h

theorem find?_mem (h : s.find? k = some e) : e ∈ s.entries := List.mem_of_find?_eq_some h

theorem contains_iff : s.contains k = true ↔ k ∈ s.keys := by
  simp [contains, find?, keys, List.find?_isSome]

theorem contains_eq_false_iff : s.contains k = false ↔ s.find? k = none := by
  simp [contains]

/-- A store is empty if and only if there is nothing under any key. -/
theorem isEmpty_iff : s.isEmpty = true ↔ ∀ k, s.contains k = false := by
  rw [isEmpty, List.isEmpty_iff]
  constructor
  · intro h k
    rw [contains_eq_false_iff, find?, h, List.find?_nil]
  · intro h
    rw [List.eq_nil_iff_forall_not_mem]
    intro e he
    have hkey : s.contains e.key = true := contains_iff.2 (List.mem_map_of_mem he)
    rw [h e.key] at hkey
    cases hkey

theorem peek?_isSome (s : Store κ α) (k : κ) : (s.peek? k).isSome = s.contains k := by
  simp [peek?, contains]

theorem peek?_eq_none_iff : s.peek? k = none ↔ s.contains k = false := by
  simp [peek?, contains]

/-- With keys that occur once, the entry under a key is the one that carries it. -/
theorem find?_eq_some_iff (hk : s.keys.Nodup) :
    s.find? k = some e ↔ e ∈ s.entries ∧ e.key = k := by
  constructor
  · intro h
    exact ⟨find?_mem h, find?_key h⟩
  · rintro ⟨hm, rfl⟩
    obtain ⟨d, hd⟩ := Option.isSome_iff_exists.1
      (contains_iff.2 (List.mem_map_of_mem hm) : (s.find? e.key).isSome = true)
    rw [hd, List.inj_on_of_nodup_map hk (find?_mem hd) hm (find?_key hd)]

theorem find?_remove (s : Store κ α) (k j : κ) :
    (s.remove k).find? j = if j = k then none else s.find? j := by
  simp only [find?, remove, List.find?_filter]
  split
  · next h =>
    subst h
    simp
  · next h =>
    congr 1
    funext e
    by_cases he : e.key = j
    · simp [he, h]
    · simp [he]

theorem peek?_remove (s : Store κ α) (k j : κ) :
    (s.remove k).peek? j = if j = k then none else s.peek? j := by
  simp only [peek?, find?_remove]
  split <;> rfl

theorem remove_of_not_contains (h : s.contains k = false) : s.remove k = s := by
  have hk : ∀ e ∈ s.entries, e.key ≠ k := by
    intro e he hek
    have : s.contains k = true := contains_iff.2 (List.mem_map.2 ⟨e, he, hek⟩)
    simp [h] at this
  simp only [remove]
  congr 1
  exact List.filter_eq_self.2 (by simpa using hk)

theorem find?_tick (s : Store κ α) (k : κ) : s.tick.find? k = s.find? k := rfl

theorem peek?_tick (s : Store κ α) (k : κ) : s.tick.peek? k = s.peek? k := rfl

theorem access_fst (s : Store κ α) (k : κ) (f : α → β × α) :
    (s.access k f).1 = (s.peek? k).map fun a => (f a).1 := by
  simp only [access, find?_tick, peek?]
  cases s.find? k <;> rfl

/-- What an access leaves under the key. -/
def accessed (now : Nat) (f : α → β × α) (e : Entry κ α) : Entry κ α :=
  ⟨e.key, (f e.value).2, { e.usage with lastAccess := now, hits := e.usage.hits + 1 }⟩

theorem access_snd_of_find? (h : s.find? k = some e) (f : α → β × α) :
    (s.access k f).2 = { s.tick with
      entries := s.entries.map fun d => if d.key = k then accessed (s.clock + 1) f e else d } := by
  simp only [access, find?_tick, h, accessed, find?_key h]
  rfl

theorem access_snd_of_not_contains (h : s.contains k = false) (f : α → β × α) :
    (s.access k f).2 = s.tick := by
  simp [access, find?_tick, contains_eq_false_iff.1 h]

theorem find?_access (s : Store κ α) (k j : κ) (f : α → β × α) :
    (s.access k f).2.find? j =
      if j = k then (s.find? k).map (accessed (s.clock + 1) f) else s.find? j := by
  cases h : s.find? k with
  | none =>
    rw [access_snd_of_not_contains (contains_eq_false_iff.2 h), find?_tick]
    split
    · next hj => rw [hj, h, Option.map_none]
    · rfl
  | some e =>
    rw [access_snd_of_find? h]
    have hk := find?_key h
    simp only [find?, List.find?_map, Function.comp_def, Option.map_some] at h ⊢
    split
    · next hj =>
      subst hj
      have hp : (fun d : Entry κ α => decide
          ((if d.key = j then accessed (s.clock + 1) f e else d).key = j)) =
          fun d => decide (d.key = j) := by
        funext d
        split <;> simp_all [accessed]
      rw [hp, h]
      simp [hk]
    · next hj =>
      have hp : (fun d : Entry κ α => decide
          ((if d.key = k then accessed (s.clock + 1) f e else d).key = j)) =
          fun d => decide (d.key = j) := by
        funext d
        split <;> simp_all [accessed]
      rw [hp]
      cases hd : List.find? (fun d : Entry κ α => decide (d.key = j)) s.entries with
      | none => rfl
      | some d =>
        have hdj : d.key = j := by simpa using List.find?_some hd
        simp [hdj, hj]

theorem peek?_access (s : Store κ α) (k j : κ) (f : α → β × α) :
    (s.access k f).2.peek? j =
      if j = k then (s.peek? k).map fun a => (f a).2 else s.peek? j := by
  simp only [peek?, find?_access]
  split
  · cases s.find? k <;> rfl
  · rfl

theorem find?_mapValues (s : Store κ α) (f : α → α) (k : κ) :
    (s.mapValues f).find? k = (s.find? k).map fun e => { e with value := f e.value } := by
  simp only [find?, mapValues, List.find?_map, Function.comp_def]

theorem peek?_mapValues (s : Store κ α) (f : α → α) (k : κ) :
    (s.mapValues f).peek? k = (s.peek? k).map f := by
  simp only [peek?, find?_mapValues, Option.map_map]
  rfl

/-- Whether a new key has to take another one's place. -/
def crowded (s : Store κ α) (k : κ) : Bool := !s.contains k && s.capacity ≤ s.size

/-- The entry of a key that is put in at a time. -/
def entered (now : Nat) (k : κ) (a : α) : Entry κ α := ⟨k, a, ⟨now, now, 0⟩⟩

/-- An insertion once there is a place for it. -/
def put (s : Store κ α) (k : κ) (a : α) : Store κ α :=
  { (s.remove k).tick with entries := (s.remove k).entries ++ [entered (s.clock + 1) k a] }

theorem insert_of_crowded (h : s.crowded k = true) (a : α) :
    s.insert k a = (s.evict.1, s.evict.2.put k a) := by
  have h' : (!s.contains k && decide (s.capacity ≤ s.size)) = true := h
  simp only [insert, h', if_true]
  rfl

theorem insert_of_not_crowded (h : s.crowded k = false) (a : α) :
    s.insert k a = (none, s.put k a) := by
  have h' : (!s.contains k && decide (s.capacity ≤ s.size)) = false := h
  simp only [insert, h', Bool.false_eq_true, if_false]
  rfl

/-- The index that is picked by the usages is that of the victim's key. -/
theorem evict_eq (s : Store κ α) : s.evict =
    match s.policy.victim? (·.usage) s.entries with
    | none => (none, s)
    | some e => (some e.key, s.remove e.key) := by
  have hkey : ((s.policy.victimIndex? (s.entries.map (·.usage))).bind fun i => s.keys[i]?) =
      (s.policy.victim? (·.usage) s.entries).map (·.key) := by
    rw [← Policy.victimIndex?_getElem?, Option.map_bind]
    simp only [keys, List.getElem?_map, Function.comp_def]
  rw [evict, hkey]
  cases s.policy.victim? (·.usage) s.entries <;> rfl

theorem evict_of_victim? (h : s.policy.victim? (·.usage) s.entries = some e) :
    s.evict = (some e.key, s.remove e.key) := by
  rw [evict_eq, h]

theorem evict_of_no_victim (h : s.policy.victim? (·.usage) s.entries = none) :
    s.evict = (none, s) := by
  rw [evict_eq, h]

theorem evict_clock (s : Store κ α) : s.evict.2.clock = s.clock := by
  unfold evict
  split <;> rfl

theorem find?_put (s : Store κ α) (k j : κ) (a : α) :
    (s.put k a).find? j = if j = k then some (entered (s.clock + 1) k a) else s.find? j := by
  have hr := find?_remove s k j
  simp only [find?, put, List.find?_append] at hr ⊢
  rw [hr]
  by_cases hj : j = k
  · simp [hj, entered]
  · have hkj : ¬ k = j := fun he => hj he.symm
    simp [hj, hkj, entered]

/-- An insertion puts its entry in, drops the evicted one and leaves all others. -/
theorem find?_insert (s : Store κ α) (k j : κ) (a : α) :
    (s.insert k a).2.find? j =
      if j = k then some (entered (s.clock + 1) k a)
      else if (s.insert k a).1 = some j then none else s.find? j := by
  cases hc : s.crowded k with
  | false =>
    rw [insert_of_not_crowded hc, find?_put]
    simp
  | true =>
    rw [insert_of_crowded hc, find?_put, evict_clock]
    cases hv : s.policy.victim? (·.usage) s.entries with
    | none => simp [evict_of_no_victim hv]
    | some e =>
      simp only [evict_of_victim? hv, find?_remove, Option.some.injEq, eq_comm]

/-- Whatever had to go for it, an entry that was put in is there. -/
theorem isEmpty_insert (s : Store κ α) (k : κ) (a : α) : (s.insert k a).2.isEmpty = false := by
  rw [← Bool.not_eq_true, isEmpty_iff]
  intro hnone
  have hk := contains_eq_false_iff.1 (hnone k)
  rw [find?_insert, if_pos rfl] at hk
  cases hk

theorem peek?_insert (s : Store κ α) (k j : κ) (a : α) :
    (s.insert k a).2.peek? j =
      if j = k then some a else if (s.insert k a).1 = some j then none else s.peek? j := by
  simp only [peek?, find?_insert]
  split
  · rfl
  · split <;> rfl

end Rhythm.Store
