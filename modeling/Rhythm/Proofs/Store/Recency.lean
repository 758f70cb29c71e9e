import Rhythm.Proofs.Store.Bound

/-! What a store evicts, told by the calls that were made of it and not by its stamps. -/
namespace Rhythm.Store

variable {κ α : Type}

/-- The calls of a store. A `get` may change the value, and `change` changes all of them. -/
inductive Call (κ α : Type)
  | insert (key : κ) (value : α)
  | get (key : κ) (f : α → α)
  | remove (key : κ)
  | clear
  | peek (key : κ)
  | usage (key : κ)
  | change (f : α → α)

/-- A call, and the store that it met. -/
structure Event (κ α : Type) where
  call : Call κ α
  store : Store κ α

/-- The same store with its entries listed in another order. -/
structure Reordered (s t : Store κ α) : Prop where
  entries : t.entries.Perm s.entries
  capacity : t.capacity = s.capacity
  policy : t.policy = s.policy
  clock : t.clock = s.clock

variable [DecidableEq κ]

def after (s : Store κ α) : Call κ α → Store κ α
  | .insert key value => (s.insert key value).2
  | .get key f => (s.access key fun a => ((), f a)).2
  | .remove key => s.remove key
  | .clear => s.clear
  | .peek _ | .usage _ => s
  | .change f => s.mapValues f

/-- The stores that calls lead to from the empty one, the latest call first. Between two calls the
entries may change their order. -/
inductive Run (capacity : Nat) (policy : Policy) : List (Event κ α) → Store κ α → Prop
  | empty : Run capacity policy [] (.empty capacity policy)
  | call {h : List (Event κ α)} {s t : Store κ α} (c : Call κ α) (hr : Run capacity policy h s)
      (ht : Reordered (s.after c) t) : Run capacity policy (⟨c, s⟩ :: h) t

namespace Event

/-- The key that an event uses, if it does: that of an insertion, or of a `get` that finds it. -/
def used? (x : Event κ α) : Option κ :=
  match x.call with
  | .insert key _ => some key
  | .get key _ => if x.store.contains key then some key else none
  | _ => none

def isInsert (x : Event κ α) : Bool :=
  match x.call with
  | .insert .. => true
  | _ => false

end Event

/-- When a key was last used, counted in calls. -/
def lastUse (key : κ) : List (Event κ α) → Nat
  | [] => 0
  | x :: h => if x.used? = some key then h.length + 1 else lastUse key h

/-- How often a key was got since it was last inserted. -/
def timesGot (key : κ) : List (Event κ α) → Nat
  | [] => 0
  | x :: h =>
    if x.used? = some key then (if x.isInsert then 0 else timesGot key h + 1) else timesGot key h

/-- Whether a key has to go before another, by what has happened. -/
def Sooner (policy : Policy) (h : List (Event κ α)) (a b : κ) : Prop :=
  match policy with
  | .lru => lastUse a h < lastUse b h
  | .lfu => timesGot a h < timesGot b h ∨ (timesGot a h = timesGot b h ∧ lastUse a h < lastUse b h)

variable {s t : Store κ α} {h h' : List (Event κ α)} {k j : κ} {a : α} {c : Call κ α}
  {e d : Entry κ α} {capacity : Nat} {policy : Policy}

theorem mem_remove : e ∈ (s.remove k).entries ↔ e ∈ s.entries ∧ e.key ≠ k := by
  simp [remove]

theorem mem_put : e ∈ (s.put k a).entries ↔
    (e ∈ s.entries ∧ e.key ≠ k) ∨ e = entered (s.clock + 1) k a := by
  simp [put, mem_remove]

theorem mem_evict (h : e ∈ s.evict.2.entries) : e ∈ s.entries := by
  unfold evict at h
  split at h
  · exact h
  · exact (mem_remove.1 h).1

theorem mem_insert : e ∈ (s.insert k a).2.entries →
    (e ∈ s.entries ∧ e.key ≠ k) ∨ e = entered (s.clock + 1) k a := by
  cases hc : s.crowded k with
  | false =>
    rw [insert_of_not_crowded hc]
    exact mem_put.1
  | true =>
    rw [insert_of_crowded hc]
    intro he
    rcases mem_put.1 he with ⟨he, hk⟩ | he
    · exact .inl ⟨mem_evict he, hk⟩
    · exact .inr (by rw [he, evict_clock])

theorem insert_clock (s : Store κ α) (k : κ) (a : α) : (s.insert k a).2.clock = s.clock + 1 := by
  cases hc : s.crowded k with
  | false =>
    rw [insert_of_not_crowded hc]
    rfl
  | true =>
    rw [insert_of_crowded hc]
    exact congrArg (· + 1) (evict_clock s)

/-- The entries of `t` are entries of `s`, their values apart, and the clock has gone on by at most
one. -/
structure Unstamped (s t : Store κ α) : Prop where
  clock_ge : s.clock ≤ t.clock
  clock_le : t.clock ≤ s.clock + 1
  old : ∀ e ∈ t.entries, ∃ d ∈ s.entries, d.key = e.key ∧ d.usage = e.usage

/-- The entry of one key has the new time for its stamp, and its count begins anew or goes on. All
other entries are entries of `s`. -/
structure Stamps (s t : Store κ α) (k : κ) (anew : Bool) : Prop where
  clock_eq : t.clock = s.clock + 1
  old : ∀ e ∈ t.entries, e.key ≠ k → e ∈ s.entries
  stamp : ∀ e ∈ t.entries, e.key = k → e.usage.lastAccess = s.clock + 1
  hits : ∀ e ∈ t.entries, e.key = k →
    if anew then e.usage.hits = 0 else ∃ d ∈ s.entries, d.key = k ∧ e.usage.hits = d.usage.hits + 1

theorem stamps_insert (s : Store κ α) (k : κ) (a : α) : Stamps s (s.insert k a).2 k true where
  clock_eq := insert_clock s k a
  old := by
    intro e he hk
    rcases mem_insert he with ⟨he, -⟩ | rfl
    · exact he
    · exact absurd rfl hk
  stamp := by
    intro e he hk
    rcases mem_insert he with ⟨-, hk'⟩ | rfl
    · exact absurd hk hk'
    · rfl
  hits := by
    intro e he hk
    rcases mem_insert he with ⟨-, hk'⟩ | rfl
    · exact absurd hk hk'
    · exact rfl

theorem stamps_access {β : Type} (hd : s.find? k = some d) (f : α → β × α) :
    Stamps s (s.access k f).2 k false := by
  have hdk := find?_key hd
  have hdm := find?_mem hd
  rw [access_snd_of_find? hd]
  refine ⟨rfl, ?_, ?_, ?_⟩
  · intro e he hk
    obtain ⟨b, hb, rfl⟩ := List.mem_map.1 he
    split at hk
    · exact absurd hdk hk
    · next hbk => simpa [hbk] using hb
  · intro e he hk
    obtain ⟨b, hb, rfl⟩ := List.mem_map.1 he
    split at hk
    · next hbk => simp [hbk, accessed]
    · next hbk => exact absurd hk hbk
  · intro e he hk
    obtain ⟨b, hb, rfl⟩ := List.mem_map.1 he
    split at hk
    · next hbk =>
      refine ⟨d, hdm, hdk, ?_⟩
      simp [hbk, accessed]
    · next hbk => exact absurd hk hbk

/-- A call uses one key or none. -/
theorem after_cases (s : Store κ α) (c : Call κ α) :
    ((Event.mk c s).used? = none ∧ Unstamped s (s.after c)) ∨
    ∃ k, (Event.mk c s).used? = some k ∧ Stamps s (s.after c) k (Event.mk c s).isInsert := by
  cases c with
  | insert k a => exact .inr ⟨k, rfl, stamps_insert s k a⟩
  | get k f =>
    cases hd : s.find? k with
    | none =>
      have hc := contains_eq_false_iff.2 hd
      refine .inl ⟨by simp [Event.used?, hc], ?_⟩
      simp only [after, access_snd_of_not_contains hc]
      exact ⟨Nat.le_succ _, Nat.le_refl _, fun e he => ⟨e, he, rfl, rfl⟩⟩
    | some d => exact .inr ⟨k, by simp [Event.used?, contains, hd], stamps_access hd _⟩
  | remove k =>
    refine .inl ⟨rfl, Nat.le_refl _, Nat.le_succ _, ?_⟩
    intro e he
    exact ⟨e, (mem_remove.1 he).1, rfl, rfl⟩
  | clear =>
    refine .inl ⟨rfl, Nat.le_refl _, Nat.le_succ _, ?_⟩
    intro e he
    cases he
  | peek k | usage k =>
    exact .inl ⟨rfl, Nat.le_refl _, Nat.le_succ _, fun e he => ⟨e, he, rfl, rfl⟩⟩
  | change f =>
    refine .inl ⟨rfl, Nat.le_refl _, Nat.le_succ _, ?_⟩
    intro e he
    obtain ⟨d, hd, rfl⟩ := List.mem_map.1 he
    exact ⟨d, hd, rfl, rfl⟩

theorem sound_after (hs : s.Sound) (c : Call κ α) : (s.after c).Sound := by
  cases c with
  | insert k a => exact sound_insert hs k a
  | get k f => exact sound_access hs k _
  | remove k => exact sound_remove hs k
  | clear => exact sound_clear hs
  | peek k | usage k => exact hs
  | change f => exact sound_mapValues hs f

theorem policy_after (s : Store κ α) (c : Call κ α) : (s.after c).policy = s.policy := by
  cases c with
  | insert k a =>
    cases hc : s.crowded k with
    | true =>
      simp only [after, insert_of_crowded hc, put, remove, tick, evict]
      split <;> rfl
    | false => simp only [after, insert_of_not_crowded hc, put, remove, tick]
  | get k f =>
    cases hd : s.find? k with
    | none => simp only [after, access_snd_of_not_contains (contains_eq_false_iff.2 hd), tick]
    | some d => simp only [after, access_snd_of_find? hd, tick]
  | remove k | clear | peek k | usage k | change f => rfl

theorem capacity_after (s : Store κ α) (c : Call κ α) : (s.after c).capacity = s.capacity := by
  cases c with
  | insert k a =>
    cases hc : s.crowded k with
    | true => simp only [after, insert_of_crowded hc, put, remove, tick, capacity_evict]
    | false => simp only [after, insert_of_not_crowded hc, put, remove, tick]
  | get k f => exact capacity_access s k _
  | remove k | clear | peek k | usage k | change f => rfl

/-- The stamps of a store are in the order of the last uses, and its counts are those of the
history. -/
structure Recorded (h : List (Event κ α)) (s : Store κ α) : Prop where
  clock_le : s.clock ≤ h.length
  stamp_le : ∀ e ∈ s.entries, e.usage.lastAccess ≤ s.clock
  stamped : Policy.Stamped (·.usage) s.entries
  order : ∀ d ∈ s.entries, ∀ e ∈ s.entries,
    d.usage.lastAccess < e.usage.lastAccess ↔ lastUse d.key h < lastUse e.key h
  hits : ∀ e ∈ s.entries, e.usage.hits = timesGot e.key h

theorem lastUse_le (key : κ) (h : List (Event κ α)) : lastUse key h ≤ h.length := by
  induction h with
  | nil => exact Nat.le_refl _
  | cons x h ih =>
    simp only [lastUse, List.length_cons]
    split <;> omega

theorem timesGot_le (key : κ) (h : List (Event κ α)) : timesGot key h ≤ h.length := by
  induction h with
  | nil => exact Nat.le_refl _
  | cons x h ih =>
    simp only [timesGot, List.length_cons]
    split
    · split <;> omega
    · omega

theorem lastUse_cons_of_ne {x : Event κ α} (hx : x.used? ≠ some k) :
    lastUse k (x :: h) = lastUse k h := by
  simp [lastUse, hx]

theorem timesGot_cons_of_ne {x : Event κ α} (hx : x.used? ≠ some k) :
    timesGot k (x :: h) = timesGot k h := by
  simp [timesGot, hx]

theorem recorded_empty (capacity : Nat) (policy : Policy) :
    Recorded [] (Store.empty capacity policy : Store κ α) where
  clock_le := Nat.le_refl _
  stamp_le := by intro e he; cases he
  stamped := by intro e he; cases he
  order := by intro e he; cases he
  hits := by intro e he; cases he

theorem recorded_unstamped {x : Event κ α} (ht : t.Sound) (hr : Recorded h s)
    (hx : x.used? = none) (hu : Unstamped s t) : Recorded (x :: h) t := by
  have hne : ∀ j, x.used? ≠ some j := by simp [hx]
  have hclock := hr.clock_le
  have hle := hu.clock_le
  have hge := hu.clock_ge
  refine ⟨by rw [List.length_cons]; omega, ?_, ?_, ?_, ?_⟩
  · intro e he
    obtain ⟨d, hd, -, hde⟩ := hu.old e he
    have := hr.stamp_le d hd
    rw [hde] at this
    omega
  · intro e he e' he' heq
    obtain ⟨d, hd, hk, hde⟩ := hu.old e he
    obtain ⟨d', hd', hk', hde'⟩ := hu.old e' he'
    have hdd := hr.stamped d hd d' hd' (by simpa [hde, hde'] using heq)
    exact eq_of_mem_of_key_eq ht he he' (by rw [← hk, ← hk', hdd])
  · intro e he e' he'
    obtain ⟨d, hd, hk, hde⟩ := hu.old e he
    obtain ⟨d', hd', hk', hde'⟩ := hu.old e' he'
    rw [lastUse_cons_of_ne (hne _), lastUse_cons_of_ne (hne _), ← hde, ← hde', ← hk, ← hk']
    exact hr.order d hd d' hd'
  · intro e he
    obtain ⟨d, hd, hk, hde⟩ := hu.old e he
    rw [timesGot_cons_of_ne (hne _), ← hde, ← hk]
    exact hr.hits d hd

/-- A stamped entry is the latest, by its stamp as by its last use. -/
theorem recorded_stamps {x : Event κ α} (ht : t.Sound) (hr : Recorded h s)
    (hx : x.used? = some k) (hu : Stamps s t k x.isInsert) : Recorded (x :: h) t := by
  have hself : lastUse k (x :: h) = h.length + 1 := by simp [lastUse, hx]
  have hother : ∀ j, j ≠ k → x.used? ≠ some j := by
    intro j hj he
    rw [hx] at he
    exact hj (Option.some.inj he).symm
  have hclock := hr.clock_le
  have hnow := hu.clock_eq
  have hold : ∀ e ∈ t.entries, e.key ≠ k → e.usage.lastAccess < s.clock + 1 := by
    intro e he hk
    exact Nat.lt_succ_of_le (hr.stamp_le e (hu.old e he hk))
  refine ⟨by rw [List.length_cons]; omega, ?_, ?_, ?_, ?_⟩
  · intro e he
    by_cases hk : e.key = k
    · exact Nat.le_of_eq (by rw [hu.stamp e he hk, hnow])
    · have := hold e he hk
      omega
  · intro e he e' he' heq
    dsimp only at heq
    by_cases hk : e.key = k <;> by_cases hk' : e'.key = k
    · exact eq_of_mem_of_key_eq ht he he' (by rw [hk, hk'])
    · have := hold e' he' hk'
      have := hu.stamp e he hk
      omega
    · have := hold e he hk
      have := hu.stamp e' he' hk'
      omega
    · exact hr.stamped e (hu.old e he hk) e' (hu.old e' he' hk') heq
  · intro e he e' he'
    by_cases hk : e.key = k <;> by_cases hk' : e'.key = k
    · rw [hu.stamp e he hk, hu.stamp e' he' hk', hk, hk']
      omega
    · have := hold e' he' hk'
      have := lastUse_le e'.key h
      rw [hu.stamp e he hk, hk, hself, lastUse_cons_of_ne (hother _ hk')]
      omega
    · have := hold e he hk
      have := lastUse_le e.key h
      rw [hu.stamp e' he' hk', hk', hself, lastUse_cons_of_ne (hother _ hk)]
      omega
    · rw [lastUse_cons_of_ne (hother _ hk), lastUse_cons_of_ne (hother _ hk')]
      exact hr.order e (hu.old e he hk) e' (hu.old e' he' hk')
  · intro e he
    by_cases hk : e.key = k
    · have hh := hu.hits e he hk
      cases hi : x.isInsert with
      | true => simpa [hi, timesGot, hk, hx] using hh
      | false =>
        simp only [hi, Bool.false_eq_true, if_false] at hh
        obtain ⟨d, hd, hdk, hh⟩ := hh
        simp [timesGot, hk, hx, hi, hh, hr.hits d hd, hdk]
    · rw [timesGot_cons_of_ne (hother _ hk)]
      exact hr.hits e (hu.old e he hk)

theorem recorded_after (hs : s.Sound) (hr : Recorded h s) (c : Call κ α) :
    Recorded (⟨c, s⟩ :: h) (s.after c) := by
  rcases after_cases s c with ⟨hx, hu⟩ | ⟨k, hx, hu⟩
  · exact recorded_unstamped (sound_after hs c) hr hx hu
  · exact recorded_stamps (sound_after hs c) hr hx hu

end Rhythm.Store
