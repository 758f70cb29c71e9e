import Mathlib.Tactic.ByContra
import Rhythm.Notation.Scenes
import Rhythm.Proofs.Notation.Shifting

/-! The segments of a text. What a text of several segments comes to is told by the readings of its
segments, each by itself. -/
namespace Rhythm.Notation

/-- The pieces of a text between its bars. -/
def segments (text : List Char) : List (List Char) := text.splitOn '|'

/-- The text is read if there is nothing else. -/
def Readable (text : List Char) : Prop := ∃ e, parseExpr text = .ok e

variable {text t : List Char} {i : Nat} {e : Expr} {parsed : Parsed}

theorem segments_ne_nil (text : List Char) : segments text ≠ [] := List.splitOn_ne_nil _ _

/-- A segment has no bar in it. -/
theorem bar_not_mem (h : t ∈ segments text) : '|' ∉ t := by
  induction text generalizing t with
  | nil =>
    rw [segments, List.splitOn_nil, List.mem_singleton] at h
    simp [h]
  | cons c cs ih =>
    rw [segments, List.splitOn_cons_eq_if_modifyHead] at h
    split at h
    · rcases List.mem_cons.1 h with rfl | h
      · simp
      · exact ih h
    · next hc =>
      change t ∈ (segments cs).modifyHead _ at h
      cases hs : segments cs with
      | nil => exact absurd hs (segments_ne_nil cs)
      | cons s ss =>
        rw [hs] at ih
        rw [hs, List.modifyHead_cons, List.mem_cons] at h
        rcases h with rfl | h
        · have hbar := ih (List.mem_cons_self ..)
          rw [List.mem_cons, not_or]
          exact ⟨fun heq => hc (by rw [← heq]; rfl), hbar⟩
        · exact ih (List.mem_cons_of_mem _ h)

theorem map_located (place : Nat) (ts : List (List Char)) :
    (sceneTexts.located place ts).map (·.2) = ts := by
  induction ts generalizing place with
  | nil => rfl
  | cons t ts ih => rw [sceneTexts.located, List.map_cons, ih]

theorem map_sceneTexts (text : List Char) : (sceneTexts text).map (·.2) = segments text :=
  map_located 0 _

/-- A text without bars is read as it is. -/
theorem parse_single (h : '|' ∉ t) : parse t = (parseExpr t).map (⟨·, []⟩) := by
  have hs : sceneTexts t = [(0, t)] := by
    rw [sceneTexts, List.splitOn_eq_singleton h]
    rfl
  rw [parse, hs]
  rfl

/-- The readings of the segments of a text, each in its place. -/
def readings (text : List Char) : List (Fallible Expr) :=
  (sceneTexts text).map fun t => parseSegment t.1 t.2

theorem length_readings (text : List Char) : (readings text).length = (segments text).length := by
  rw [readings, ← map_sceneTexts, List.length_map, List.length_map]

theorem parse_several (h : 2 ≤ (segments text).length) : parse text = ofScenes (readings text) := by
  rw [← map_sceneTexts, List.length_map] at h
  unfold parse
  split
  · next hs =>
    rw [hs] at h
    simp at h
  · rfl

/-- The number of characters before a segment: those of the segments before it, and their bars. -/
def segmentStart (text : List Char) (i : Nat) : Nat :=
  ((segments text).take i).flatten.length + i

theorem located_getElem? (place : Nat) (ts : List (List Char)) (i : Nat) :
    (sceneTexts.located place ts)[i]? =
      ts[i]?.map fun t => (place + ((ts.take i).flatten.length + i), t) := by
  induction ts generalizing place i with
  | nil => simp [sceneTexts.located]
  | cons s ts ih =>
    cases i with
    | zero => simp [sceneTexts.located]
    | succ i =>
      have hplace : place + s.length + 1 + ((ts.take i).flatten.length + i) =
          place + (((s :: ts).take (i + 1)).flatten.length + (i + 1)) := by
        simp only [List.take_succ_cons, List.flatten_cons, List.length_append]
        omega
      simp only [sceneTexts.located, List.getElem?_cons_succ, ih, hplace]

theorem sceneTexts_getElem? (h : (segments text)[i]? = some t) :
    (sceneTexts text)[i]? = some (segmentStart text i, t) := by
  have hloc := located_getElem? 0 (segments text) i
  rw [h, Nat.zero_add] at hloc
  exact hloc

/-- A segment is read in its place as it is by itself. -/
theorem reading_in_place (h : (segments text)[i]? = some t) : (readings text)[i]? =
    some (shifted (segmentStart text i) (·.shift (segmentStart text i)) (parseExpr t)) := by
  have hshift := parseSegment_shift 0 (segmentStart text i) t
  rw [Nat.zero_add] at hshift
  rw [readings, List.getElem?_map, sceneTexts_getElem? h]
  exact congrArg some hshift

/-- Whatever is before a segment only moves its reading. -/
theorem readings_getElem? (h : (segments text)[i]? = some t) :
    ∃ n, (readings text)[i]? = some (shifted n (·.shift n) (parseExpr t)) :=
  ⟨_, reading_in_place h⟩

theorem ofScenes_eq_ok {rs : List (Fallible Expr)} (h : ofScenes rs = .ok parsed) :
    parsed = ⟨.scenes (rs.map fun r => (expr? r).getD restScene), sceneFaults 1 rs⟩ := by
  unfold ofScenes at h
  split at h
  · cases h
  · cases h
    rfl

theorem ofScenes_of_mem {rs : List (Fallible Expr)} (h : .ok e ∈ rs) :
    ∃ parsed, ofScenes rs = .ok parsed := by
  have hne : rs.filterMap expr? ≠ [] := by
    intro hnil
    have hmem : e ∈ rs.filterMap expr? := List.mem_filterMap.2 ⟨_, h, rfl⟩
    rw [hnil] at hmem
    cases hmem
  unfold ofScenes
  split
  · next hnil _ => exact absurd hnil hne
  · exact ⟨_, rfl⟩

theorem sceneFaults_ne_nil {rs : List (Fallible Expr)} (hne : rs ≠ [])
    (h : ∀ r ∈ rs, expr? r = none) (k : Nat) : sceneFaults k rs ≠ [] := by
  cases rs with
  | nil => exact absurd rfl hne
  | cons r rs =>
    cases r with
    | ok e => cases h _ (List.mem_cons_self ..)
    | error err => exact List.cons_ne_nil _ _

/-- A text of several segments is refused only if none of them can be read. -/
theorem parse_ok_iff (h : 2 ≤ (segments text).length) :
    (∃ parsed, parse text = .ok parsed) ↔ ∃ t ∈ segments text, Readable t := by
  rw [parse_several h]
  constructor
  · rintro ⟨parsed, hp⟩
    by_contra hnone
    have herr : ∀ r ∈ readings text, expr? r = none := by
      intro r hr
      obtain ⟨i, hi⟩ := List.mem_iff_getElem?.1 hr
      have hlt : i < (segments text).length := by
        rw [← length_readings]
        exact (List.getElem?_eq_some_iff.1 hi).1
      obtain ⟨n, hn⟩ := readings_getElem? (List.getElem?_eq_getElem hlt)
      rw [hi, Option.some_inj] at hn
      cases he : parseExpr (segments text)[i] with
      | ok e => exact absurd ⟨_, List.getElem_mem hlt, e, he⟩ hnone
      | error err =>
        rw [hn, he]
        rfl
    have hne : readings text ≠ [] := by
      rw [← List.length_pos_iff, length_readings]
      omega
    unfold ofScenes at hp
    split at hp
    · cases hp
    · next hs =>
      have hnil : (readings text).filterMap expr? = [] := by simpa using herr
      cases hf : sceneFaults 1 (readings text) with
      | nil => exact sceneFaults_ne_nil hne herr 1 hf
      | cons w ws => exact hs w ws hnil hf
  · rintro ⟨t, ht, e, he⟩
    obtain ⟨i, hi⟩ := List.mem_iff_getElem?.1 ht
    obtain ⟨n, hn⟩ := readings_getElem? hi
    rw [he] at hn
    exact ofScenes_of_mem (List.mem_of_getElem? hn)

theorem mem_sceneFaults {rs : List (Fallible Expr)} {k : Nat} {w : NotationError} :
    w ∈ sceneFaults k rs ↔ ∃ (i : Nat) (err : NotationError),
      rs[i]? = some (.error err) ∧ w = err.inScene (k + i) := by
  induction rs generalizing k with
  | nil => simp [sceneFaults]
  | cons r rs ih =>
    have hrest : (∃ (i : Nat) (err : NotationError),
          rs[i]? = some (.error err) ∧ w = err.inScene (k + 1 + i)) ↔
        ∃ (i : Nat) (err : NotationError),
          (r :: rs)[i + 1]? = some (.error err) ∧ w = err.inScene (k + (i + 1)) := by
      simp only [List.getElem?_cons_succ, Nat.add_assoc, Nat.add_comm 1]
    cases r with
    | ok e =>
      rw [sceneFaults, ih, hrest]
      constructor
      · rintro ⟨i, err, hi, hw⟩
        exact ⟨i + 1, err, hi, hw⟩
      · rintro ⟨i, err, hi, hw⟩
        cases i with
        | zero => cases hi
        | succ i => exact ⟨i, err, hi, hw⟩
    | error err =>
      rw [sceneFaults, List.mem_cons, ih, hrest]
      constructor
      · rintro (rfl | ⟨i, err', hi, hw⟩)
        · exact ⟨0, err, rfl, rfl⟩
        · exact ⟨i + 1, err', hi, hw⟩
      · rintro ⟨i, err', hi, hw⟩
        cases i with
        | zero =>
          cases hi
          exact .inl hw
        | succ i => exact .inr ⟨i, err', hi, hw⟩

section Several

variable (hs : 2 ≤ (segments text).length) (hp : parse text = .ok parsed)

include hs hp

/-- The scenes of a text are its segments, or rests in their place. -/
theorem parsed_expr : parsed.expr =
    .scenes ((readings text).map fun r => (expr? r).getD restScene) := by
  rw [parse_several hs] at hp
  rw [ofScenes_eq_ok hp]

/-- Just the segments that cannot be read have a warning. -/
theorem warned_iff (hi : (segments text)[i]? = some t) : ¬ Readable t ↔
    ∃ w ∈ parsed.warnings, ∃ fault, w.fault = .inScene (i + 1) fault := by
  rw [parse_several hs] at hp
  rw [ofScenes_eq_ok hp]
  obtain ⟨n, hn⟩ := readings_getElem? hi
  constructor
  · intro hunread
    cases he : parseExpr t with
    | ok e => exact absurd ⟨e, he⟩ hunread
    | error err =>
      rw [he] at hn
      refine ⟨(err.shift n).inScene (1 + i), mem_sceneFaults.2 ⟨i, _, hn, rfl⟩,
        (err.shift n).fault, ?_⟩
      rw [Nat.add_comm i]
      rfl
  · rintro ⟨w, hw, fault, hfault⟩ ⟨e, he⟩
    obtain ⟨j, err, hj, rfl⟩ := mem_sceneFaults.1 hw
    have hij : 1 + j = i + 1 := (Fault.inScene.inj hfault).1
    obtain rfl : j = i := by omega
    rw [he, hj] at hn
    cases hn

end Several

end Rhythm.Notation
