import Rhythm.Proofs.Notation.Segments

/-! A text is the list of what its segments are by themselves: each scene stands in the place of its
segment, and so does the fault of a segment that cannot be read. -/
namespace Rhythm.Notation

variable {α : Type} {text t : List Char} {i n : Nat} {ts : List (List Char)}
  {rs : List (Fallible Expr)}

/-- What a segment contributes to the list of scenes. -/
def segmentScene (text t : List Char) (i : Nat) : Expr :=
  match parseExpr t with
  | .ok e => e.shift (segmentStart text i)
  | .error _ => restScene

/-- The warning about a segment, if there is one. -/
def segmentFault? (text t : List Char) (i : Nat) : Option NotationError :=
  match parseExpr t with
  | .ok _ => none
  | .error err => some ((err.shift (segmentStart text i)).inScene (i + 1))

theorem intercalate_getElem? (h : ts[i]? = some t) : ∃ before after,
    List.intercalate ['|'] ts = before ++ t ++ after ∧
      before.length = (ts.take i).flatten.length + i := by
  induction ts generalizing i with
  | nil => simp at h
  | cons s ts ih =>
    cases ts with
    | nil =>
      obtain ⟨rfl, rfl⟩ : i = 0 ∧ s = t := by
        cases i <;> simp_all
      exact ⟨[], [], by simp, by simp⟩
    | cons s' ts =>
      have hcons : List.intercalate ['|'] (s :: s' :: ts) =
          s ++ ['|'] ++ List.intercalate ['|'] (s' :: ts) := List.intercalate_cons_cons ..
      cases i with
      | zero =>
        obtain rfl : s = t := by simpa using h
        refine ⟨[], ['|'] ++ List.intercalate ['|'] (s' :: ts), ?_, by simp⟩
        rw [hcons]
        simp
      | succ i =>
        obtain ⟨before, after, heq, hlength⟩ := ih (i := i) (by simpa using h)
        refine ⟨s ++ ['|'] ++ before, after, ?_, ?_⟩
        · rw [hcons, heq]
          simp
        · simp only [List.length_append, List.length_singleton, hlength, List.take_succ_cons,
            List.flatten_cons]
          omega

/-- The start of a segment counts the characters before it. -/
theorem segment_in_text (h : (segments text)[i]? = some t) : ∃ before after,
    text = before ++ t ++ after ∧ before.length = segmentStart text i := by
  obtain ⟨before, after, heq, hlength⟩ := intercalate_getElem? h
  rw [segments, List.intercalate_splitOn] at heq
  exact ⟨before, after, heq, hlength⟩

/-- A text that is one segment has no bar, and the segment is the text. -/
theorem segment_of_single (h : (segments text).length = 1) : '|' ∉ text := by
  obtain ⟨t, ht⟩ := List.length_eq_one_iff.1 h
  have hmem : t ∈ segments text := by
    rw [ht]
    exact List.mem_singleton_self t
  have hbar : '|' ∉ t := bar_not_mem hmem
  have htext : List.intercalate ['|'] (segments text) = text := List.intercalate_splitOn ..
  rw [ht, List.intercalate_singleton] at htext
  rwa [← htext]

theorem segmentScene_of_reading (h : rs[i]? =
    some (shifted (segmentStart text i) (·.shift (segmentStart text i)) (parseExpr t))) :
    (rs.map fun r => (expr? r).getD restScene)[i]? = some (segmentScene text t i) := by
  rw [List.getElem?_map, h, segmentScene]
  cases parseExpr t <;> rfl

/-- A list that has for each segment, in its place, what the segment and the place tell. -/
theorem eq_map_segments {xs : List α} {f : List Char → Nat → α}
    (hlength : xs.length = (segments text).length)
    (h : ∀ i t, (segments text)[i]? = some t → xs[i]? = some (f t i)) :
    xs = (segments text).zipIdx.map fun s => f s.1 s.2 := by
  apply List.ext_getElem?
  intro i
  cases hs : (segments text)[i]? with
  | none =>
    have hle : (segments text).length ≤ i := List.getElem?_eq_none_iff.1 hs
    simp [hlength, hle]
  | some t => simp [hs, h i t hs]

theorem map_scenes (text : List Char) :
    ((readings text).map fun r => (expr? r).getD restScene) =
      (segments text).zipIdx.map fun s => segmentScene text s.1 s.2 := by
  apply eq_map_segments
  · rw [List.length_map, length_readings]
  · intro i t hs
    exact segmentScene_of_reading (reading_in_place hs)

/-- The fault of a reading under a number, if it has one. -/
def numberedFault? (number : Nat) : Fallible Expr → Option NotationError
  | .ok _ => none
  | .error err => some (err.inScene number)

theorem sceneFaults_eq (k : Nat) (rs : List (Fallible Expr)) :
    sceneFaults k rs = (rs.zipIdx k).filterMap fun r => numberedFault? r.2 r.1 := by
  induction rs generalizing k with
  | nil => rfl
  | cons r rs ih => cases r <;> simp [sceneFaults, numberedFault?, ih]

theorem numberedFault?_shifted (text t : List Char) (i : Nat) :
    numberedFault? (i + 1) (shifted (segmentStart text i) (·.shift (segmentStart text i))
      (parseExpr t)) = segmentFault? text t i := by
  unfold segmentFault?
  cases parseExpr t <;> rfl

theorem zipIdx_readings (text : List Char) : (readings text).zipIdx 1 =
    (segments text).zipIdx.map fun s => (shifted (segmentStart text s.2)
      (·.shift (segmentStart text s.2)) (parseExpr s.1), s.2 + 1) := by
  apply eq_map_segments (f := fun t i => (shifted (segmentStart text i)
    (·.shift (segmentStart text i)) (parseExpr t), i + 1))
  · rw [List.length_zipIdx, length_readings]
  · intro i t hs
    rw [List.getElem?_zipIdx, reading_in_place hs, Option.map_some, Nat.add_comm 1]

theorem faults_eq (text : List Char) : sceneFaults 1 (readings text) =
    (segments text).zipIdx.filterMap fun s => segmentFault? text s.1 s.2 := by
  have hfault := fun s : List Char × Nat => numberedFault?_shifted text s.1 s.2
  rw [sceneFaults_eq, zipIdx_readings, List.filterMap_map]
  exact congrArg (List.filterMap · _) (funext hfault)

/-- The first segment is in its place from the start. -/
theorem first_reading (h : (segments text)[0]? = some t) :
    (readings text)[0]? = some (parseExpr t) := by
  have hstart : segmentStart text 0 = 0 := by simp [segmentStart]
  have htext := sceneTexts_getElem? h
  rw [hstart] at htext
  simp [readings, htext, parseExpr]

/-- The first segment, and what is wrong with it. -/
theorem exists_first (h : 2 ≤ (segments text).length) (hnone : ∀ t ∈ segments text, ¬ Readable t) :
    ∃ t err, (segments text)[0]? = some t ∧ parseExpr t = .error err := by
  have hzero : (segments text)[0]? = some (segments text)[0] :=
    List.getElem?_eq_getElem (by omega)
  cases he : parseExpr (segments text)[0] with
  | ok e => exact absurd ⟨e, he⟩ (hnone _ (List.getElem_mem _))
  | error err => exact ⟨_, err, hzero, he⟩

/-- The fault of a refused list is the warning about its first segment. -/
theorem ofScenes_eq_error {err : NotationError} (h : ∀ parsed, ofScenes rs ≠ .ok parsed)
    (hr : rs[0]? = some (.error err)) : ofScenes rs = .error (err.inScene 1) := by
  obtain ⟨rs, rfl⟩ : ∃ rs', rs = .error err :: rs' := by
    cases rs with
    | nil => simp at hr
    | cons r rs => exact ⟨rs, by simpa using hr⟩
  cases ho : ofScenes (.error err :: rs) with
  | ok parsed => exact absurd ho (h parsed)
  | error err' =>
    unfold ofScenes at ho
    split at ho
    · next hfaults =>
      cases hfaults
      exact ho.symm
    · cases ho

/-- A text none of whose segments can be read is refused for the first one. -/
theorem parse_unreadable {err : NotationError} (h : 2 ≤ (segments text).length)
    (hnone : ∀ t ∈ segments text, ¬ Readable t) (hs : (segments text)[0]? = some t)
    (he : parseExpr t = .error err) : parse text = .error (err.inScene 1) := by
  have hfail : ∀ parsed, parse text ≠ .ok parsed := by
    intro parsed hp
    obtain ⟨s, hmem, hread⟩ := (parse_ok_iff h).1 ⟨parsed, hp⟩
    exact hnone s hmem hread
  have hfirst := first_reading hs
  rw [he] at hfirst
  rw [parse_several h] at hfail ⊢
  exact ofScenes_eq_error hfail hfirst

/-- A text with a segment that can be read is the list of all its segments. -/
theorem parse_readable (h : 2 ≤ (segments text).length) (hsome : ∃ t ∈ segments text, Readable t) :
    parse text = .ok ⟨.scenes ((segments text).zipIdx.map fun s => segmentScene text s.1 s.2),
      (segments text).zipIdx.filterMap fun s => segmentFault? text s.1 s.2⟩ := by
  obtain ⟨parsed, hp⟩ := (parse_ok_iff h).2 hsome
  have hparsed := hp
  rw [parse_several h] at hparsed
  rw [hp, ofScenes_eq_ok hparsed, map_scenes, faults_eq]

/-- A text is read segment by segment. One segment is the text by itself. Of several, each is read
as it is by itself and moved to its place; one that cannot be read becomes a rest with a warning,
and if none can be read the text is refused with the warning about the first. -/
theorem parse_by_segments (text : List Char) :
    (∀ i t, (segments text)[i]? = some t → ∃ before after,
      text = before ++ t ++ after ∧ before.length = segmentStart text i) ∧
    ((segments text).length = 1 → parse text = (parseExpr text).map (⟨·, []⟩)) ∧
    (2 ≤ (segments text).length →
      ((∀ t ∈ segments text, ¬ Readable t) → ∃ t err, (segments text)[0]? = some t ∧
        parseExpr t = .error err ∧ parse text = .error (err.inScene 1)) ∧
      ((∃ t ∈ segments text, Readable t) → parse text =
        .ok ⟨.scenes ((segments text).zipIdx.map fun s => segmentScene text s.1 s.2),
          (segments text).zipIdx.filterMap fun s => segmentFault? text s.1 s.2⟩)) ∧
    ∀ (err : NotationError) (number : Nat), (err.inScene number).fault.message =
      s!"scene {number}: " ++ err.fault.message := by
  refine ⟨?_, ?_, ?_, ?_⟩
  · intro i t h
    exact segment_in_text h
  · intro h
    exact parse_single (segment_of_single h)
  · intro h
    constructor
    · intro hnone
      obtain ⟨t, err, hs, he⟩ := exists_first h hnone
      exact ⟨t, err, hs, he, parse_unreadable h hnone hs he⟩
    · intro hsome
      exact parse_readable h hsome
  · intro err number
    rfl

/-- The middle one of three segments is a name that nothing has. -/
theorem parse_by_segments_of_three : 2 ≤ (segments "1|Q|101".toList).length ∧
    ∃ warnings, parse "1|Q|101".toList = .ok ⟨.scenes ((segments "1|Q|101".toList).zipIdx.map
      fun s => segmentScene "1|Q|101".toList s.1 s.2), warnings⟩ ∧
        warnings = [⟨.inScene 2 (.unknownPattern ['Q']), ⟨2, 1⟩⟩] := by
  have hs : 2 ≤ (segments "1|Q|101".toList).length := by decide +kernel
  have hmem : "1".toList ∈ segments "1|Q|101".toList := by decide +kernel
  have hone : Readable "1".toList := by
    cases he : parseExpr "1".toList with
    | ok e => exact ⟨e, he⟩
    | error err =>
      have hok : (parseExpr "1".toList).isOk = true := by decide +kernel
      rw [he] at hok
      cases hok
  refine ⟨hs, _, ((parse_by_segments "1|Q|101".toList).2.2.1 hs).2 ⟨_, hmem, hone⟩, ?_⟩
  decide +kernel

/-- What a refused text is told. -/
def refusal? {α : Type} : Fallible α → Option String
  | .ok _ => none
  | .error err => some err.message

/-- The fault of a refused list is not the first segment's own: it says which scene it is about. -/
theorem refused_under_number : 2 ≤ (segments "Q|X".toList).length ∧
    (∀ t ∈ segments "Q|X".toList, ¬ Readable t) ∧
    (segments "Q|X".toList)[0]? = some "Q".toList ∧
    ∃ err, parseExpr "Q".toList = .error err ∧ parse "Q|X".toList ≠ .error err := by
  have hunread : ∀ t ∈ segments "Q|X".toList, (parseExpr t).isOk = false := by decide +kernel
  have halone : refusal? (parseExpr "Q".toList) = some "Error at 0..1: unknown pattern 'Q'" := by
    decide +kernel
  have hlist : refusal? (parse "Q|X".toList) =
      some "Error at 0..1: scene 1: unknown pattern 'Q'" := by decide +kernel
  refine ⟨by decide +kernel, ?_, by decide +kernel, ?_⟩
  · rintro t ht ⟨e, he⟩
    have hno := hunread t ht
    rw [he] at hno
    cases hno
  · cases he : parseExpr "Q".toList with
    | ok e =>
      rw [he] at halone
      cases halone
    | error err =>
      refine ⟨err, rfl, ?_⟩
      intro hp
      rw [hp] at hlist
      rw [he] at halone
      have hsame := halone.symm.trans hlist
      revert hsame
      decide

end Rhythm.Notation
