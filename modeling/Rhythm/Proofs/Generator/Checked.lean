import Rhythm.Generator.Indispensability
import Rhythm.Generator.Polygon
import Rhythm.Generator.Random
import Rhythm.Proofs.Generator.Evenness
import Rhythm.Proofs.Pattern.Checked

/-! The generators as a machine makes them. Whatever they are called with, lengths are clamped and
numbers of onsets held below them before anything is computed, and nothing stops. -/
namespace Rhythm

open Rhythm.Random

variable {onsets steps : Nat}

/-- One round of the regrouping, on lists of groups and of remainders. Both are cut at the length of
the shorter one, and what is left of the other are the next remainders. -/
def deal? (groups rests : List (List Bool)) : Option (List (List Bool) × List (List Bool)) := do
  let paired := min groups.length rests.length
  let (heads, moreGroups) ← Checked.split groups paired
  let (tails, moreRests) ← Checked.split rests paired
  return (List.zipWith (· ++ ·) heads tails, if moreGroups.isEmpty then moreRests else moreGroups)

theorem deal?_eq (groups rests : List (List Bool)) :
    deal? groups rests = some (List.zipWith (· ++ ·) groups rests,
      if groups.length ≤ rests.length then rests.drop groups.length
      else groups.drop rests.length) := by
  unfold deal?
  dsimp only
  rw [Checked.bind_eq (Checked.split_eq (Nat.min_le_left _ _)),
    Checked.bind_eq (Checked.split_eq (Nat.min_le_right _ _))]
  dsimp only
  rw [← List.zipWith_eq_zipWith_take_min]
  by_cases hle : groups.length ≤ rests.length
  · simp [hle]
  · have hmin : min groups.length rests.length = rests.length := by omega
    simp [hle, hmin]

/-- All rounds. Without groups they would go on for ever. -/
def dealAll? (groups rests : List (List Bool)) : Option (List Bool) :=
  if _hr : 1 < rests.length then
    if _hg : groups.length = 0 then none
    else match _h : deal? groups rests with
      | none => none
      | some (groups, rests) => dealAll? groups rests
  else some (groups ++ rests).flatten
termination_by groups.length + rests.length
decreasing_by
  rw [deal?_eq] at _h
  obtain ⟨rfl, rfl⟩ := Prod.mk.inj (Option.some.inj _h)
  split
  · simp only [List.length_zipWith, List.length_drop]
    omega
  · simp only [List.length_zipWith, List.length_drop]
    omega

theorem dealAll?_round {groups rests : List (List Bool)} (hr : 1 < rests.length)
    (hg : groups.length ≠ 0) : dealAll? groups rests = dealAll? (List.zipWith (· ++ ·) groups rests)
      (if groups.length ≤ rests.length then rests.drop groups.length
      else groups.drop rests.length) := by
  have hround := deal?_eq groups rests
  rw [dealAll?, dif_pos hr, dif_neg hg]
  split
  · next h => cases hround.symm.trans h
  · next h =>
    cases hround.symm.trans h
    rfl

def bjorklund? (pulses steps : Nat) : Option (List Bool) :=
  if steps = 0 then some []
  else if steps ≤ pulses then some (List.replicate steps true)
  else if pulses = 0 then some (List.replicate steps false)
  else do
    let rests ← Checked.sub steps pulses
    dealAll? (List.replicate pulses [true]) (List.replicate rests [false])

/-- Groups and remainders that are alike among themselves are regrouped by their numbers. -/
theorem dealAll?_replicate (u : List Bool) {a : Nat} (v : List Bool) (b : Nat) (ha : 0 < a) :
    dealAll? (List.replicate a u) (List.replicate b v) = some (regroup u a v b) := by
  fun_induction regroup u a v b with
  | case1 u a v b h hlt ih =>
    rw [dealAll?_round (by simpa using h.1) (by simpa using Nat.ne_of_gt ha),
      if_neg (by simpa using hlt), List.zipWith_replicate, List.drop_replicate,
      List.length_replicate, Nat.min_eq_right (Nat.le_of_lt hlt)]
    exact ih (by omega)
  | case2 u a v b h hlt ih =>
    rw [dealAll?_round (by simpa using h.1) (by simpa using Nat.ne_of_gt ha),
      if_pos (by simpa using hlt), List.zipWith_replicate, List.drop_replicate,
      List.length_replicate, Nat.min_eq_left (Nat.le_of_not_lt hlt)]
    exact ih ha
  | case3 u a v b h =>
    have hb : ¬ 1 < (List.replicate b v).length := by
      rw [List.length_replicate]
      exact fun hb => h ⟨hb, ha⟩
    rw [dealAll?, dif_neg hb, List.flatten_append]

theorem bjorklund?_eq (pulses steps : Nat) :
    bjorklund? pulses steps = some (bjorklund pulses steps) := by
  unfold bjorklund? bjorklund
  by_cases hzero : steps = 0
  · simp [hzero]
  by_cases hfull : steps ≤ pulses
  · rw [if_neg hzero, if_pos hfull, if_pos hfull]
  by_cases hnone : pulses = 0
  · rw [if_neg hzero, if_neg hfull, if_pos hnone, if_neg hfull, if_pos hnone]
  rw [if_neg hzero, if_neg hfull, if_neg hnone, if_neg hfull, if_neg hnone,
    Checked.bind_eq (Checked.sub_eq (by omega)), dealAll?_replicate _ _ _ (by omega)]

def euclidean? (onsets steps : Nat) : Option Pattern := do
  let n := clampSteps steps
  let slots ← bjorklund? (min onsets n) n
  let p ← Checked.steps slots
  p.alignToDownbeat?

def dilcue? (onsets steps : Nat) : Option Pattern := do
  let n := clampSteps steps
  let rests ← Checked.sub n (min onsets n)
  let p ← euclidean? rests n
  p.invert?

theorem euclidean?_eq (onsets steps : Nat) :
    euclidean? onsets steps = some (euclidean onsets steps) := by
  have hlength : (bjorklund (min onsets (clampSteps steps)) (clampSteps steps)).length =
      clampSteps (clampSteps steps) := by
    rw [length_bjorklund, Pattern.clampSteps_clampSteps]
  have hslots := Pattern.steps_tabulate_getD hlength
  unfold euclidean? euclidean
  dsimp only
  rw [Checked.bind_eq (bjorklund?_eq _ _), Checked.bind_eq (Checked.steps_eq hslots),
    Pattern.alignToDownbeat?_eq]

theorem dilcue?_eq (onsets steps : Nat) : dilcue? onsets steps = some (dilcue onsets steps) := by
  unfold dilcue? dilcue
  dsimp only
  rw [Checked.bind_eq (Checked.sub_eq (Nat.min_le_right _ _)),
    Checked.bind_eq (euclidean?_eq _ _), Pattern.invert?_eq]

/-- The score of a position, with the differences that are taken for it. -/
def indispensability? (position steps : Nat) : Option Float := do
  if position = 0 then return indispensability position steps
  let _ ← Checked.sub steps position
  let _ ← Checked.sub steps 1
  return indispensability position steps

/-- The ranking, for which the score of every position is looked up. -/
def ranking? (steps : Nat) (m : Metric) : Option (List Nat) := do
  let scores ← (List.range steps).mapM (indispensability? · steps)
  let _ ← (List.range steps).mapM fun i => scores[i]?
  return rankBy (m.key scores) steps

def preferred? (m : Metric) (onsets steps : Nat) : Option Pattern := do
  let n := clampSteps steps
  let order ← ranking? n m
  Pattern.ofOnsets? (order.take (min onsets n)) n

theorem indispensability?_eq {position : Nat} (h : position < steps) :
    indispensability? position steps = some (indispensability position steps) := by
  unfold indispensability?
  by_cases hzero : position = 0
  · rw [if_pos hzero]
    rfl
  · rw [if_neg hzero, Checked.bind_eq (Checked.sub_eq (Nat.le_of_lt h)),
      Checked.bind_eq (Checked.sub_eq (by omega))]
    rfl

theorem ranking?_eq (steps : Nat) (m : Metric) : ranking? steps m = some (ranking steps m) := by
  have hscores : ∀ i ∈ List.range steps,
      indispensability? i steps = some (indispensability i steps) := by
    intro i hi
    exact indispensability?_eq (List.mem_range.1 hi)
  have hfound : ∀ i ∈ List.range steps,
      ((List.range steps).map (indispensability · steps))[i]? =
        some (indispensability i steps) := by
    intro i hi
    simp [List.mem_range.1 hi]
  unfold ranking?
  rw [Checked.bind_eq (Checked.mapM_eq hscores), Checked.bind_eq (Checked.mapM_eq hfound)]
  rfl

theorem preferred?_eq (m : Metric) (onsets steps : Nat) :
    preferred? m onsets steps = some (preferred m onsets steps) := by
  have horder : (ranking (clampSteps steps) m).length = clampSteps steps := by
    simp [ranking, rankBy]
  have htake : (ranking (clampSteps steps) m).take (min onsets (clampSteps steps)) =
      (ranking (clampSteps steps) m).take onsets := by
    rw [List.take_eq_take_iff, horder]
    omega
  unfold preferred? preferred Pattern.firstOf
  dsimp only
  rw [Checked.bind_eq (ranking?_eq _ _), Pattern.ofOnsets?_eq, htake, Pattern.ofOnsets,
    Pattern.ofOnsets, Pattern.tabulate_clampSteps]

def polygon? (sides : Nat) (offset : Int) (steps : Nat) : Option Pattern := do
  let n := clampSteps steps
  let corners := min sides n
  let positions ← (List.range corners).mapM fun i => nearestStep? i corners n
  let p ← Pattern.ofOnsets? positions n
  p.rotate? offset

theorem polygon?_eq (sides : Nat) (offset : Int) (steps : Nat) :
    polygon? sides offset steps = some (polygon sides offset steps) := by
  have hle := clampSteps_le steps
  have hcorners : ∀ i ∈ List.range (min sides (clampSteps steps)),
      nearestStep? i (min sides (clampSteps steps)) (clampSteps steps) =
        some (nearestStep i (min sides (clampSteps steps)) (clampSteps steps)) := by
    intro i hi
    have hlt := List.mem_range.1 hi
    exact nearestStep?_eq (by omega) (by omega) (clampSteps_pos steps) hle
  unfold polygon? polygon
  dsimp only
  rw [Checked.bind_eq (Checked.mapM_eq hcorners), Checked.bind_eq (Pattern.ofOnsets?_eq _ _),
    Pattern.rotate?_eq]

/-- There must be as many numbers as are to be drawn. -/
def sample? (length amount : Nat) (rng : Pcg32) : Option (List Nat × Pcg32) :=
  if amount ≤ length then some (sample length amount rng) else none

def scatter? (onsets steps : Nat) (rng : Pcg32) : Option (Pattern × Pcg32) := do
  let n := clampSteps steps
  let (positions, rng) ← sample? n (min onsets n) rng
  let p ← Pattern.ofOnsets? positions n
  return (p, rng)

/-- The number of onsets is held between two bounds, of which the first must not be the larger. -/
def bellOnsets? (steps : Nat) (rng : Pcg32) : Option (Nat × Pcg32) :=
  if 1 ≤ max (steps - 1) 1 then some (bellOnsets steps rng) else none

def bellScatter? (steps : Nat) (rng : Pcg32) : Option (Pattern × Pcg32) := do
  let (onsets, rng) ← bellOnsets? steps rng
  scatter? onsets steps rng

theorem scatter?_eq (onsets steps : Nat) (rng : Pcg32) :
    scatter? onsets steps rng = some (scatter onsets steps rng) := by
  have hsample : sample? (clampSteps steps) (min onsets (clampSteps steps)) rng =
      some (sample (clampSteps steps) (min onsets (clampSteps steps)) rng) := by
    rw [sample?, if_pos (Nat.min_le_right _ _)]
  unfold scatter?
  dsimp only
  rw [Checked.bind_eq hsample, Checked.bind_eq (Pattern.ofOnsets?_eq _ _)]
  rfl

/-- However the number of onsets is drawn. -/
theorem scatter?_drawn (onsets : Draw Nat) (steps : Nat) (rng : Pcg32) :
    scatter? (onsets rng).1 steps (onsets rng).2 =
      some ((onsets >>= fun k => scatter k steps) rng) :=
  scatter?_eq (onsets rng).1 steps (onsets rng).2

theorem bellScatter?_eq (steps : Nat) (rng : Pcg32) :
    bellScatter? steps rng = some (bellScatter steps rng) := by
  have honsets : bellOnsets? steps rng = some (bellOnsets steps rng) := by
    rw [bellOnsets?, if_pos (Nat.le_max_right _ _)]
  unfold bellScatter? bellScatter
  rw [Checked.bind_eq honsets]
  exact scatter?_drawn (bellOnsets steps) steps rng

end Rhythm
