import Mathlib.Data.List.Perm.Basic
import Rhythm.Store

/-! The victim of a policy: the one entry that goes before every other, in whatever order they are
listed. -/
namespace Rhythm.Policy

variable {α : Type} {policy : Policy} {usage : α → Usage} {l m : List α} {a b v : α} {x y z : Usage}

theorem before_lru : Policy.lru.before x y = true ↔ x.lastAccess < y.lastAccess := by
  simp [before]

theorem before_lfu : Policy.lfu.before x y = true ↔
    x.hits < y.hits ∨ (x.hits = y.hits ∧ x.lastAccess < y.lastAccess) := by
  simp [before]

theorem before_irrefl (policy : Policy) (x : Usage) : policy.before x x = false := by
  cases policy <;> simp [before]

theorem before_asymm (h : policy.before x y = true) : policy.before y x = false := by
  rw [← Bool.not_eq_true]
  cases policy <;> simp only [before_lru, before_lfu] at h ⊢ <;> omega

theorem before_neg_trans (hxy : policy.before x y = false) (hyz : policy.before y z = false) :
    policy.before x z = false := by
  rw [← Bool.not_eq_true] at *
  cases policy <;> simp only [before_lru, before_lfu] at hxy hyz ⊢ <;> omega

/-- Different stamps leave no ties. -/
theorem before_of_stamp_ne (hs : x.lastAccess ≠ y.lastAccess) (h : policy.before x y = false) :
    policy.before y x = true := by
  rw [← Bool.not_eq_true] at h
  cases policy <;> simp only [before_lru, before_lfu] at h ⊢ <;> omega

theorem victim?_eq_none_iff : policy.victim? usage l = none ↔ l = [] := by
  cases l with
  | nil => simp [victim?]
  | cons a l =>
    simp only [victim?, reduceCtorEq, iff_false]
    split
    · simp
    · split <;> simp

/-- The victim is on the list, and nothing there has to go before it. -/
theorem victim?_spec (h : policy.victim? usage l = some v) :
    v ∈ l ∧ ∀ b ∈ l, policy.before (usage b) (usage v) = false := by
  induction l generalizing v with
  | nil => simp [victim?] at h
  | cons a l ih =>
    simp only [victim?] at h
    cases ht : policy.victim? usage l with
    | none =>
      rw [victim?_eq_none_iff] at ht
      subst ht
      simp only [victim?, Option.some.injEq] at h
      subst h
      simp [before_irrefl]
    | some w =>
      obtain ⟨hw, hleast⟩ := ih ht
      simp only [ht] at h
      split at h
      · next hwa =>
        obtain rfl := Option.some.inj h
        refine ⟨List.mem_cons_of_mem _ hw, ?_⟩
        intro b hb
        rcases List.mem_cons.1 hb with rfl | hb
        · exact before_asymm hwa
        · exact hleast b hb
      · next hwa =>
        obtain rfl := Option.some.inj h
        refine ⟨List.mem_cons_self, ?_⟩
        intro b hb
        rcases List.mem_cons.1 hb with rfl | hb
        · exact before_irrefl _ _
        · exact before_neg_trans (hleast b hb) (by simpa using hwa)

theorem victim?_map {β : Type} (f : β → α) (l : List β) :
    policy.victim? usage (l.map f) = (policy.victim? (fun b => usage (f b)) l).map f := by
  induction l with
  | nil => rfl
  | cons b l ih =>
    rw [List.map_cons, victim?, victim?, ih]
    cases policy.victim? (fun b => usage (f b)) l with
    | none => rfl
    | some c =>
      dsimp only [Option.map_some]
      split <;> rfl

/-- The entry at the index that is picked by the usages alone is the victim among the entries. -/
theorem victimIndex?_getElem? (l : List α) :
    ((policy.victimIndex? (l.map usage)).bind fun i => l[i]?) = policy.victim? usage l := by
  have hplain : policy.victim? usage (l.zipIdx.map Prod.fst) = _ := victim?_map Prod.fst l.zipIdx
  rw [List.zipIdx_map_fst] at hplain
  rw [victimIndex?, List.zipIdx_map, victim?_map, hplain]
  cases hv : policy.victim? (fun b => usage b.1) l.zipIdx with
  | none => simp only [Prod.map_fst, hv, Option.map_none, Option.bind_none]
  | some v =>
    simp only [Prod.map_fst, hv, Option.map_some, Option.bind_some, Prod.map_snd, id_eq]
    exact List.mem_zipIdx_iff_getElem?.1 (victim?_spec hv).1

/-- No two entries of a list were used at the same time. -/
def Stamped (usage : α → Usage) (l : List α) : Prop :=
  ∀ a ∈ l, ∀ b ∈ l, (usage a).lastAccess = (usage b).lastAccess → a = b

theorem victim?_before (hl : Stamped usage l) (h : policy.victim? usage l = some v)
    (hb : b ∈ l) (hne : b ≠ v) : policy.before (usage v) (usage b) = true := by
  obtain ⟨hv, hleast⟩ := victim?_spec h
  apply before_of_stamp_ne _ (hleast b hb)
  intro he
  exact hne (hl b hb v hv he)

/-- The order of a list makes no difference to the victim. -/
theorem victim?_perm (hl : Stamped usage l) (hp : m.Perm l) :
    policy.victim? usage m = policy.victim? usage l := by
  cases hv : policy.victim? usage l with
  | none =>
    rw [victim?_eq_none_iff] at hv ⊢
    subst hv
    exact hp.eq_nil
  | some v =>
    cases hw : policy.victim? usage m with
    | none =>
      rw [victim?_eq_none_iff] at hw
      subst hw
      rw [← hp.nil_eq, victim?] at hv
      cases hv
    | some w =>
      obtain ⟨hwm, hleast⟩ := victim?_spec hw
      have hvm := hp.mem_iff.2 (victim?_spec hv).1
      by_contra hne
      have hwv : w ≠ v := by simpa using hne
      have := victim?_before hl hv (hp.mem_iff.1 hwm) hwv
      rw [hleast v hvm] at this
      cases this

end Rhythm.Policy
