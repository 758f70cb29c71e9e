import Rhythm.Proofs.Notation.Extent
import Rhythm.Proofs.Notation.Segments
import Rhythm.Proofs.Session.Turns

/-! Which failures of its segments a text can bear. -/
namespace Rhythm

open Notation Performance Rhythm.Random

variable {parsed : Parsed} {seed own : UInt64} {e : Expr} {n i : Nat}

theorem sceneAfter_mem (parsed : Parsed) (n : Nat) :
    (parts parsed.expr)[n % parsed.sceneCount]? = some (parsed.sceneAfter n) :=
  List.getElem?_eq_getElem _

theorem sceneAfter_of_isScene {warnings : List NotationError} (h : e.IsScene) (n : Nat) :
    (Parsed.mk e warnings).sceneAfter n = e := by
  have hmem := List.mem_of_getElem? (sceneAfter_mem (Parsed.mk e warnings) n)
  rw [parts_of_isScene h] at hmem
  exact List.mem_singleton.1 hmem

/-- A text can be shown if the scene whose turn it is can be evaluated. -/
theorem readingAfter_ok_iff (hp : parsed.Shaped) :
    (∃ r, parsed.readingAfter seed own n = .ok r) ↔ (parsed.sceneAfter n).Evaluable seed := by
  have hscene := parts_isScene hp _ (List.mem_of_getElem? (sceneAfter_mem parsed n))
  have hresult : (∃ x, parsed.resultAfter seed own n = .ok x) ↔
      (parsed.sceneAfter n).Evaluable seed := evalWith_eq_ok_iff hscene _ _
  rw [← hresult, Parsed.readingAfter]
  cases parsed.resultAfter seed own n with
  | ok x => exact iff_of_true ⟨_, rfl⟩ ⟨x, rfl⟩
  | error err => exact iff_of_false not_exists_ok not_exists_ok

namespace Session

/-- A text is valid when it is the first that a new session is given. -/
def ValidAlone (settings : Settings) (text : List Char) : Prop :=
  ∃ r, ((Session.new settings).parse (String.ofList text)).1 = .ok r

variable {settings : Settings} {text : String} {t : List Char}

theorem firstReading_ok_iff : (∃ r, firstReading parsed seed own false = .ok r) ↔
    ∃ r, parsed.readingAfter seed own 0 = .ok r := by
  rw [firstReading, counted, if_neg Bool.false_ne_true]
  cases hz : parsed.readingAfter seed own 0 with
  | ok r => exact iff_of_true ⟨r, rfl⟩ ⟨r, rfl⟩
  | error err => exact iff_of_false not_exists_ok not_exists_ok

/-- Kept or not, a text can be read for the first time if its first scene can be evaluated. -/
theorem readAlone_ok_iff (hp : Notation.parse text.toList = .ok parsed) :
    (∃ r, (readAlone seed text false none).1 = .ok r) ↔ (parsed.sceneAfter 0).Evaluable seed := by
  have hshaped := parse_shaped hp
  cases hs : parsed.isStateful with
  | true =>
    have hfirst : (∃ r, (readAlone seed text false none).1 = .ok r) ↔
        ∃ r, firstReading parsed seed (derivedSeed seed text.toList) false = .ok r := by
      rcases readAlone_none hp hs rfl false with ⟨err, ha, hf⟩ | ⟨r, p, ha, hf, -⟩
      · rw [ha, hf]
      · rw [ha, hf]
    rw [hfirst, firstReading_ok_iff, readingAfter_ok_iff hshaped]
  | false =>
    cases hshaped with
    | several => cases hs
    | single he =>
      rw [sceneAfter_of_isScene he, readAlone, hp]
      dsimp only
      rw [hs, Bool.not_false, if_pos rfl, Expr.Evaluable]
      cases Expr.eval seed _ with
      | ok x => exact iff_of_true ⟨_, rfl⟩ ⟨x, rfl⟩
      | error err => exact iff_of_false not_exists_ok not_exists_ok

/-- A new session reads a text if the first scene of it can be evaluated. -/
theorem parse_new_ok_iff (settings : Settings) (text : String) :
    (∃ r, ((Session.new settings).parse text).1 = .ok r) ↔
      ∃ parsed, Notation.parse text.toList = .ok parsed ∧
        (parsed.sceneAfter 0).Evaluable settings.seed := by
  have hread : ((Session.new settings).parse text).1 =
      (readAlone settings.seed text false none).1 :=
    (read_alone (Session.new settings) text false).1
  rw [hread]
  cases hp : Notation.parse text.toList with
  | error err =>
    rw [readAlone, hp]
    exact iff_of_false not_exists_ok not_exists_ok_and
  | ok parsed =>
    rw [readAlone_ok_iff hp]
    constructor
    · intro he
      exact ⟨parsed, rfl, he⟩
    · rintro ⟨parsed', hp', he⟩
      cases hp'
      exact he

theorem validAlone_iff (hb : '|' ∉ t) :
    ValidAlone settings t ↔ ∃ e, parseExpr t = .ok e ∧ e.Evaluable settings.seed := by
  rw [ValidAlone, parse_new_ok_iff, String.toList_ofList, parse_single hb]
  cases he : parseExpr t with
  | error err => exact iff_of_false not_exists_ok_and not_exists_ok_and
  | ok e =>
    have hscene : e.IsScene := parseSegment_isScene he
    constructor
    · rintro ⟨parsed, hp, hev⟩
      cases hp
      rw [sceneAfter_of_isScene hscene] at hev
      exact ⟨e, rfl, hev⟩
    · rintro ⟨e', he', hev⟩
      cases he'
      refine ⟨_, rfl, ?_⟩
      rw [sceneAfter_of_isScene hscene]
      exact hev

theorem evaluable_rest (seed : UInt64) : restScene.Evaluable seed := ⟨_, rfl⟩

section Several

variable (hs : 2 ≤ (segments text.toList).length) (hp : Notation.parse text.toList = .ok parsed)

include hs hp

theorem parts_of_several :
    parts parsed.expr = (readings text.toList).map fun r => (expr? r).getD restScene := by
  rw [parsed_expr hs hp]
  refine parts_scenes ?_
  rw [← List.length_pos_iff, List.length_map, length_readings]
  omega

theorem sceneCount_eq : parsed.sceneCount = (segments text.toList).length := by
  rw [Parsed.sceneCount, parts_of_several hs hp, List.length_map, length_readings]

/-- The scene of a segment, in its place, or a rest. -/
theorem sceneAfter_segment
    (hi : (segments text.toList)[n % (segments text.toList).length]? = some t) :
    ∃ k, parsed.sceneAfter n = ((expr? (parseExpr t)).map (·.shift k)).getD restScene := by
  obtain ⟨k, hk⟩ := readings_getElem? hi
  have hscene := sceneAfter_mem parsed n
  rw [sceneCount_eq hs hp, parts_of_several hs hp, List.getElem?_map, hk] at hscene
  refine ⟨k, (Option.some.inj hscene).symm.trans ?_⟩
  cases parseExpr t <;> rfl

theorem isStateful_of_several : parsed.isStateful = true := by
  rw [Parsed.isStateful, parsed_expr hs hp]

/-- The scene of a segment can be evaluated unless the segment can be read and is not valid. -/
theorem evaluable_segment
    (hi : (segments text.toList)[n % (segments text.toList).length]? = some t) :
    (parsed.sceneAfter n).Evaluable settings.seed ↔ (Readable t → ValidAlone settings t) := by
  obtain ⟨k, hk⟩ := sceneAfter_segment hs hp hi
  have hbar : '|' ∉ t := bar_not_mem (List.mem_of_getElem? hi)
  rw [hk, validAlone_iff hbar]
  cases he : parseExpr t with
  | error err =>
    refine iff_of_true (evaluable_rest _) ?_
    rintro ⟨e, he'⟩
    cases he.symm.trans he'
  | ok e =>
    have hscene : e.IsScene := parseSegment_isScene he
    refine (evaluable_shift settings.seed k hscene).trans ⟨?_, ?_⟩
    · intro hev _
      exact ⟨e, rfl, hev⟩
    · intro hvalid
      obtain ⟨e', he', hev⟩ := hvalid ⟨e, he⟩
      cases he'
      exact hev

/-- What a text shows is what a segment that cannot be read is replaced by, when it is its turn. -/
theorem result_unreadable
    (hi : (segments text.toList)[n % (segments text.toList).length]? = some t)
    (hr : ¬ Readable t) (own : UInt64) :
    parsed.resultAfter seed own n = .ok ⟨.rests 1, none, none⟩ := by
  obtain ⟨k, hk⟩ := sceneAfter_segment hs hp hi
  cases he : parseExpr t with
  | ok e => exact absurd ⟨e, he⟩ hr
  | error err =>
    rw [he] at hk
    rw [Parsed.resultAfter, hk]
    rfl

end Several

variable {h : List Call} {advancing : Bool} {r : Reading}

/-- Whatever was called before, a text that is read can be parsed. -/
theorem parsed_of_read (hr : ((after settings h).read text advancing).1 = .ok r) :
    ∃ parsed, Notation.parse text.toList = .ok parsed := by
  cases hp : Notation.parse text.toList with
  | ok parsed => exact ⟨parsed, rfl⟩
  | error err =>
    rw [(read_alone _ text advancing).1] at hr
    cases hk : (after settings h).store.peek? text with
    | some p =>
      obtain ⟨parsed, hp', -⟩ : Keepable text :=
        keepable_of_contains ((Store.peek?_isSome ..).symm.trans (by rw [hk]; rfl))
      cases hp.symm.trans hp'
    | none =>
      rw [hk, readAlone, hp] at hr
      cases hr

/-- Every reading is what the text shows after some number of triggers. -/
theorem exists_meaning (hp : Notation.parse text.toList = .ok parsed)
    (hs : parsed.isStateful = true)
    (hr : ((after settings h).read text advancing).1 = .ok r) :
    ∃ n, meaning settings text parsed n = .ok r := by
  cases hn : turns? settings text h with
  | some n => exact ⟨_, (read_of_turns hp hs hn advancing).symm.trans hr⟩
  | none =>
    rw [read_first hp hs hn, firstReading, ← meaning, ← meaning] at hr
    cases hm : meaning settings text parsed 0 with
    | error err =>
      rw [hm] at hr
      cases hr
    | ok r₀ =>
      rw [hm] at hr
      exact ⟨_, hr⟩

/-- A segment that cannot be read does not fail its text: it is a rest, with a warning. One that can
be read and is not valid by itself does. It fails the text if it is the first one, and else every
trigger that comes to it. -/
theorem segments_degrade (settings : Settings) (text : String)
    (hs : 2 ≤ (segments text.toList).length) :
    ((∃ r, ((Session.new settings).parse text).1 = .ok r) ↔
      (∃ t ∈ segments text.toList, Readable t) ∧
        ∀ t, (segments text.toList)[0]? = some t → Readable t → ValidAlone settings t) ∧
    (∀ h n t, turns? settings text h = some n →
      (segments text.toList)[(n + 1) % (segments text.toList).length]? = some t →
        ((∃ r, ((after settings h).trigger text).1 = .ok r) ↔
          (Readable t → ValidAlone settings t))) ∧
    (∀ h advancing r i t, ((after settings h).read text advancing).1 = .ok r →
      (segments text.toList)[i]? = some t →
        (¬ Readable t ↔ ∃ w ∈ r.warnings, ∃ fault, w.fault = .inScene (i + 1) fault) ∧
        (¬ Readable t → r.sceneIndex = i → r.evaluation = ⟨.rests 1, none, none⟩)) := by
  refine ⟨?_, ?_, ?_⟩
  · rw [parse_new_ok_iff, ← parse_ok_iff hs]
    have hfirst : ∀ parsed, Notation.parse text.toList = .ok parsed →
        ((parsed.sceneAfter 0).Evaluable settings.seed ↔
          ∀ t, (segments text.toList)[0]? = some t → Readable t → ValidAlone settings t) := by
      intro parsed hp
      have hlt : 0 < (segments text.toList).length := by omega
      have hi : (segments text.toList)[0 % (segments text.toList).length]? =
          some (segments text.toList)[0] := by
        rw [Nat.zero_mod]
        exact List.getElem?_eq_getElem hlt
      rw [evaluable_segment hs hp hi]
      constructor
      · intro hvalid t ht
        rw [List.getElem?_eq_getElem hlt] at ht
        cases ht
        exact hvalid
      · intro hvalid
        exact hvalid _ (List.getElem?_eq_getElem hlt)
    constructor
    · rintro ⟨parsed, hp, hev⟩
      exact ⟨⟨parsed, hp⟩, (hfirst parsed hp).1 hev⟩
    · rintro ⟨⟨parsed, hp⟩, hvalid⟩
      exact ⟨parsed, hp, (hfirst parsed hp).2 hvalid⟩
  · intro h n t hn hi
    obtain ⟨parsed, hp, hstate⟩ := keepable_of_contains (contains_of_turns hn)
    rw [Session.trigger, read_of_turns hp hstate hn true, meaning, counted, if_pos rfl,
      readingAfter_ok_iff (parse_shaped hp), evaluable_segment hs hp hi]
  · intro h advancing r i t hr hi
    obtain ⟨parsed, hp⟩ := parsed_of_read hr
    obtain ⟨n, hn⟩ := exists_meaning hp (isStateful_of_several hs hp) hr
    rw [meaning, Parsed.readingAfter] at hn
    cases hx : parsed.resultAfter settings.seed (derivedSeed settings.seed text.toList) n with
    | error err =>
      rw [hx] at hn
      cases hn
    | ok x =>
      rw [hx] at hn
      cases hn
      refine ⟨warned_iff hs hp hi, ?_⟩
      intro hunread hindex
      rw [← hindex, sceneCount_eq hs hp] at hi
      rw [result_unreadable hs hp hi hunread] at hx
      cases hx
      rfl

/-- The first of two segments can be read and is too long. It fails the text, though the other one
is valid. -/
theorem segments_degrade_of_two : 2 ≤ (segments "[]:11-[]:12|1".toList).length ∧
    ValidAlone {} "1".toList ∧
    ¬ ∃ r, ((Session.new {}).parse "[]:11-[]:12|1").1 = .ok r := by
  have hs : 2 ≤ (segments "[]:11-[]:12|1".toList).length := by decide +kernel
  have hfirst : (segments "[]:11-[]:12|1".toList)[0]? = some "[]:11-[]:12".toList := by
    decide +kernel
  have hread : (parseExpr "[]:11-[]:12".toList).isOk = true := by decide +kernel
  have hfails : ((Session.new {}).parse (String.ofList "[]:11-[]:12".toList)).1.isOk = false := by
    decide +kernel
  have hvalid : ((Session.new {}).parse (String.ofList "1".toList)).1.isOk = true := by
    decide +kernel
  have hok : ∀ {ε α : Type} {x : Except ε α}, x.isOk = true ↔ ∃ a, x = .ok a := by
    intro ε α x
    cases x with
    | ok a => exact iff_of_true rfl ⟨a, rfl⟩
    | error err => exact iff_of_false Bool.false_ne_true not_exists_ok
  refine ⟨hs, hok.1 hvalid, ?_⟩
  intro hr
  have hall := ((segments_degrade {} "[]:11-[]:12|1" hs).1.1 hr).2
  have halone := hok.2 (hall _ hfirst (hok.1 hread))
  rw [hfails] at halone
  cases halone

end Session

end Rhythm
