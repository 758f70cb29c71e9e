import Rhythm.Proofs.Generator.Counts

/-! Orders of the positions of a bar, and what changing one step by an order comes to. -/
namespace Rhythm

variable {key : Nat → Int} {steps n : Nat} {order : List Nat} {p : Pattern}

/-- By their keys, and from left to right where these are equal. -/
def Precedes (key : Nat → Int) (i j : Nat) : Prop := key i < key j ∨ (key i = key j ∧ i < j)

theorem rankBy_perm (key : Nat → Int) (steps : Nat) :
    (rankBy key steps).Perm (List.range steps) := List.mergeSort_perm _ _

theorem rankBy_nodup (key : Nat → Int) (steps : Nat) : (rankBy key steps).Nodup :=
  (rankBy_perm key steps).nodup_iff.2 List.nodup_range

theorem not_pair_sublist_swap {l : List Nat} {i j : Nat} (hdup : l.Nodup)
    (hij : [i, j].Sublist l) : ¬ [j, i].Sublist l := by
  intro hji
  induction l with
  | nil => cases hij
  | cons a l ih =>
    rw [List.nodup_cons] at hdup
    cases hij with
    | cons _ hij =>
      cases hji with
      | cons _ hji => exact ih hdup.2 hij hji
      | cons_cons _ hji => exact hdup.1 (hij.subset (by simp))
    | cons_cons _ hij =>
      cases hji with
      | cons _ hji => exact hdup.1 (hji.subset (by simp))
      | cons_cons _ hji => exact hdup.1 (hji.subset (by simp))

theorem pair_sublist_range {i j : Nat} (hij : i < j) (hj : j < n) :
    [i, j].Sublist (List.range n) := by
  have hsplit : List.range n = List.range j ++ (List.range (n - j)).map (j + ·) := by
    rw [← List.range_add]
    congr 1
    omega
  rw [hsplit, ← List.singleton_append]
  apply List.Sublist.append
  · exact List.singleton_sublist.2 (List.mem_range.2 hij)
  · exact List.singleton_sublist.2 (List.mem_map.2 ⟨0, List.mem_range.2 (by omega), rfl⟩)

theorem rankBy_pairwise (key : Nat → Int) (steps : Nat) :
    (rankBy key steps).Pairwise (Precedes key) := by
  have htrans : ∀ i j k : Nat, decide (key i ≤ key j) = true → decide (key j ≤ key k) = true →
      decide (key i ≤ key k) = true := by
    simp only [decide_eq_true_eq]
    omega
  have htotal : ∀ i j : Nat, (decide (key i ≤ key j) || decide (key j ≤ key i)) = true := by
    simp only [Bool.or_eq_true, decide_eq_true_eq]
    omega
  rw [List.pairwise_iff_forall_sublist]
  intro i j hij
  have hle : key i ≤ key j := by
    simpa using List.pairwise_iff_forall_sublist.1 (List.pairwise_mergeSort htrans htotal _) hij
  have hne : i ≠ j := by
    rintro rfl
    exact not_pair_sublist_swap (rankBy_nodup key steps) hij hij
  by_cases hlt : key i < key j
  · exact .inl hlt
  · refine .inr ⟨by omega, ?_⟩
    -- Sorting is stable: were the pair the other way round, it would have stayed so.
    by_contra hswap
    have hi : i ∈ List.range steps := (rankBy_perm key steps).subset (hij.subset (by simp))
    have hji := pair_sublist_range (i := j) (j := i) (by omega) (List.mem_range.1 hi)
    have hsorted : decide (key j ≤ key i) = true := by
      simp only [decide_eq_true_eq]
      omega
    exact not_pair_sublist_swap (rankBy_nodup key steps) hij
      (List.pair_sublist_mergeSort htrans htotal hsorted hji)

theorem ranking_perm (steps : Nat) (m : Metric) : (ranking steps m).Perm (List.range steps) :=
  rankBy_perm _ _

namespace Pattern

theorem isOnset_firstOf {i : Nat} (hi : i < clampSteps steps) (onsets : Nat) :
    (firstOf order onsets steps).isOnset i = (order.take onsets).contains i := by
  rw [firstOf, ofOnsets, isOnset_tabulate]
  simp [hi]

section Order

variable (horder : order.Perm (List.range (clampSteps steps)))

include horder

theorem onsetCount_firstOf (onsets : Nat) :
    (firstOf order onsets steps).onsetCount = min onsets (clampSteps steps) := by
  have hdup : order.Nodup := horder.nodup_iff.2 List.nodup_range
  have hlength : order.length = clampSteps steps := by simpa using horder.length_eq
  rw [firstOf, onsetCount_ofOnsets (hdup.sublist (List.take_sublist ..)), List.length_take, hlength]
  intro i hi
  exact List.mem_range.1 (horder.subset (List.mem_of_mem_take hi))

/-- Filling the first positions of an order comes to one more of them. -/
theorem fill_firstOf {onsets : Nat} (h : onsets < clampSteps steps) :
    (firstOf order onsets steps).fill order = some (firstOf order (onsets + 1) steps) := by
  have hdup : order.Nodup := horder.nodup_iff.2 List.nodup_range
  have hlength : order.length = clampSteps steps := by simpa using horder.length_eq
  have hlt : onsets < order.length := by omega
  have hinside : ∀ i ∈ order, i < clampSteps steps := by
    intro i hi
    exact List.mem_range.1 (horder.subset hi)
  have hsplit : order = order.take onsets ++ order[onsets] :: order.drop (onsets + 1) := by
    rw [List.getElem_cons_drop, List.take_append_drop]
  have hnew : order[onsets] ∉ order.take onsets := by
    rw [hsplit, List.nodup_append] at hdup
    intro hmem
    exact hdup.2.2 _ hmem _ List.mem_cons_self rfl
  have hfree : order.find? (fun i => !(firstOf order onsets steps).isOnset i) =
      some order[onsets] := by
    rw [List.find?_eq_some_iff_append]
    constructor
    · rw [isOnset_firstOf (hinside _ (List.getElem_mem hlt))]
      simpa using hnew
    · refine ⟨_, _, hsplit, ?_⟩
      intro i hi
      rw [isOnset_firstOf (hinside i (List.mem_of_mem_take hi))]
      simpa using hi
  have hplace : order[onsets] < (firstOf order onsets steps).length := by
    rw [firstOf, ofOnsets, length_tabulate]
    exact hinside _ (List.getElem_mem hlt)
  rw [fill, hfree, Option.map_some]
  congr 1
  apply ext_isOnset
  · rw [length_setStep, firstOf, firstOf, ofOnsets, ofOnsets, length_tabulate, length_tabulate]
  · intro i hi
    rw [length_setStep, firstOf, ofOnsets, length_tabulate] at hi
    have hnext : i ∈ order.take (onsets + 1) ↔ i ∈ order.take onsets ∨ i = order[onsets] := by
      rw [List.take_add_one, List.getElem?_eq_getElem hlt, Option.toList_some, List.mem_append,
        List.mem_singleton]
    rw [isOnset_setStep hplace, isOnset_firstOf hi, isOnset_firstOf hi]
    by_cases hlast : order[onsets] = i
    · simp [hnext, hlast]
    · simp [hnext, hlast, Ne.symm hlast]

end Order

section Any

variable (horder : order.Perm (List.range p.length))

include horder

theorem fill_eq_some (h : p.onsetCount < p.length) :
    ∃ i < p.length, p.isOnset i = false ∧ p.fill order = some (p.setStep i true) := by
  obtain ⟨i, hi, hrest⟩ := exists_rest h
  have hmem : i ∈ order := horder.symm.subset (List.mem_range.2 hi)
  cases hfind : order.find? fun i => !p.isOnset i with
  | none =>
    have hfull := List.find?_eq_none.1 hfind i hmem
    rw [hrest] at hfull
    exact (hfull rfl).elim
  | some j =>
    have hj := List.find?_some hfind
    refine ⟨j, List.mem_range.1 (horder.subset (List.mem_of_find?_eq_some hfind)), ?_, ?_⟩
    · simpa using hj
    · rw [fill, hfind, Option.map_some]

theorem thin_eq_some (keepDownbeat : Bool) (h : 0 < p.onsetCount) :
    ∃ i < p.length, p.isOnset i = true ∧ p.thin order keepDownbeat = some (p.setStep i false) ∧
      (keepDownbeat = true → 1 < p.onsetCount → i ≠ 0) := by
  -- Where the downbeat is kept there is another onset to go.
  obtain ⟨i, hi, honset, hfree⟩ : ∃ i < p.length, p.isOnset i = true ∧
      (keepDownbeat && 1 < p.onsetCount && i == 0) = false := by
    by_cases hmany : 1 < p.onsetCount
    · obtain ⟨i, hi, honset, hzero⟩ := exists_onset_off hmany
      exact ⟨i, hi, honset, by simp [hzero]⟩
    · obtain ⟨i, hi, honset⟩ := exists_onset h
      exact ⟨i, hi, honset, by simp [hmany]⟩
  have hmem : i ∈ order := horder.symm.subset (List.mem_range.2 hi)
  cases hfind : order.find? fun i =>
      p.isOnset i && !(keepDownbeat && 1 < p.onsetCount && i == 0) with
  | none =>
    have hnone := List.find?_eq_none.1 hfind i hmem
    rw [honset, hfree] at hnone
    exact (hnone rfl).elim
  | some j =>
    have hj := List.find?_some hfind
    simp only [Bool.and_eq_true, Bool.not_eq_true', Bool.and_eq_false_iff] at hj
    refine ⟨j, List.mem_range.1 (horder.subset (List.mem_of_find?_eq_some hfind)), hj.1, ?_, ?_⟩
    · rw [thin, hfind, Option.map_some]
    · rintro hkeep hmany rfl
      simp [hkeep, hmany] at hj

end Any

end Pattern

theorem onsetCount_preferred (m : Metric) (onsets steps : Nat) :
    (preferred m onsets steps).onsetCount = min onsets (clampSteps steps) :=
  Pattern.onsetCount_firstOf (ranking_perm _ m) onsets

/-- One onset more in a preferred pattern is the preferred pattern of one onset more. -/
theorem concentrate_preferred (m : Metric) {onsets steps : Nat} (h : onsets < clampSteps steps) :
    (preferred m onsets steps).concentrate m = some (preferred m (onsets + 1) steps) := by
  rw [Pattern.concentrate, length_preferred]
  exact Pattern.fill_firstOf (ranking_perm _ m) h

end Rhythm
