import Rhythm.Proofs.Evolution.Transformation
import Rhythm.Proofs.Notation.CallTexts
import Rhythm.Proofs.Session.Separation
import Rhythm.Proofs.Session.Turns

/-! Generator calls that move to a target, as a session shows them. -/
namespace Rhythm.Session

open Notation Performance Rhythm.Random

variable {settings : Settings} {text : String} {h : List Call} {parsed : Parsed} {e : Expr}
  {advancing : Bool} {n : Nat} {f : Nat → Pattern} {family : Family} {args : List Int}
  {target : Nat}

/-- The patterns of a text, one for each number of triggers. Its triggers are what is counted; after
`n` of them parsing it shows the pattern for `n`, and one more trigger that for `n + 1`. -/
structure Shows (settings : Settings) (text : String) (f : Nat → Pattern) : Prop where
  counts (n : Nat) : (turns? settings text (List.replicate n (.trigger text))).getD 0 = n
  parse (h : List Call) : ∃ r, ((after settings h).parse text).1 = .ok r ∧
    r.evaluation.pattern = f ((turns? settings text h).getD 0)
  trigger (h : List Call) : ∃ r, ((after settings h).trigger text).1 = .ok r ∧
    r.evaluation.pattern = f ((turns? settings text h).getD 0 + 1)

/-- A text that is to be kept is kept once it could be read. -/
theorem contains_of_read (hk : Keepable text) {r : Reading}
    (hr : ((after settings h).read text advancing).1 = .ok r) :
    ((after settings h).read text advancing).2.store.contains text = true := by
  obtain ⟨parsed, hp, hs⟩ := hk
  obtain ⟨hread, hpeek⟩ := read_alone (after settings h) text advancing
  rw [← Store.peek?_isSome, hpeek]
  cases hq : (after settings h).store.peek? text with
  | some p => rfl
  | none =>
    rw [hq] at hread
    rcases readAlone_none hp hs rfl advancing with ⟨err, ha, -⟩ | ⟨r', p, ha, -, -⟩
    · rw [ha, hr] at hread
      cases hread
    · rw [ha]
      rfl

theorem shows_of_meaning (hp : Notation.parse text.toList = .ok parsed)
    (hs : parsed.isStateful = true)
    (hm : ∀ n, ∃ r, meaning settings text parsed n = .ok r ∧ r.evaluation.pattern = f n) :
    Shows settings text f := by
  have hread : ∀ h advancing, ∃ r, ((after settings h).read text advancing).1 = .ok r ∧
      r.evaluation.pattern = f (counted advancing ((turns? settings text h).getD 0)) := by
    intro h advancing
    cases hn : turns? settings text h with
    | some n =>
      obtain ⟨r, hr, hpattern⟩ := hm (counted advancing n)
      exact ⟨r, (read_of_turns hp hs hn advancing).trans hr, hpattern⟩
    | none =>
      obtain ⟨r₀, hzero, -⟩ := hm 0
      obtain ⟨r, hr, hpattern⟩ := hm (counted advancing 0)
      refine ⟨r, (read_first hp hs hn advancing).trans ?_, hpattern⟩
      rw [firstReading, ← meaning, hzero]
      exact hr
  refine ⟨?_, fun h => hread h false, fun h => hread h true⟩
  intro n
  induction n with
  | zero => rfl
  | succ n ih =>
    obtain ⟨r, hr, -⟩ := hread (List.replicate n (.trigger text)) true
    have hkept := contains_of_read ⟨parsed, hp, hs⟩ hr
    rw [List.replicate_succ, turns?_cons, ih, turned_trigger]
    exact congrArg (Option.getD · 0) (if_pos hkept)

theorem sceneAfter_single (hparts : parts parsed.expr = [e]) (n : Nat) :
    parsed.sceneAfter n = e := by
  have hall : ∀ x ∈ parts parsed.expr, x = e := by
    rw [hparts]
    simp
  exact hall _ (List.get_mem ..)

/-- A text with one scene goes on with every trigger. -/
theorem resultAfter_single (hparts : parts parsed.expr = [e]) (seed own : UInt64) (n : Nat) :
    parsed.resultAfter seed own n =
      (e.evalWith seed (afterTurns (derivedSeed own (sceneName 0)) n) ()).1 := by
  have hcount : parsed.sceneCount = 1 := by rw [Parsed.sceneCount, hparts, List.length_singleton]
  rw [Parsed.resultAfter, sceneAfter_single hparts, hcount, Nat.mod_one, Nat.div_one]

/-- A call that moves to a target shows where its transformation has come to. -/
theorem shows_transformText (settings : Settings) (h : Callable family args)
    (ht : target ≤ maxInteger) (hf : family ≠ .random) : ∃ own,
    Shows settings (String.ofList (transformText family args target)) fun n =>
      (Evolution.after n (generated 0 family args ⟨0, 0⟩)
        (progressionFor (.transform target none) (.generator family args ⟨0, 0⟩)) own).current := by
  obtain ⟨span, hp⟩ := parse_transformText h ht
  have hp' : Notation.parse (String.ofList (transformText family args target)).toList =
      .ok ⟨.progressive (.transform target none) (.generator family args span), []⟩ := by
    rw [String.toList_ofList]
    exact hp
  refine ⟨derivedSeed (derivedSeed settings.seed
    (String.ofList (transformText family args target)).toList) (sceneName 0),
    shows_of_meaning hp' rfl ?_⟩
  intro n
  rw [meaning, Parsed.readingAfter, resultAfter_single rfl,
    generated_of_ne_random hf 0 settings.seed args ⟨0, 0⟩ span]
  exact ⟨_, rfl, rfl⟩

/-- The family that places onsets by a metric. -/
def metricFamily : Metric → Family
  | .barlow => .barlow
  | .wolrab => .wolrab

variable {m : Metric} {onsets steps : Nat}

theorem callable_metric (m : Metric) (hle : onsets ≤ steps) (hsteps : steps ≤ maxInteger) :
    Callable (metricFamily m) [(onsets : Int), (steps : Int)] := by
  refine ⟨⟨Nat.le_refl 2, ?_, ?_, ?_⟩, ?_⟩
  · cases m <;> exact Nat.le_refl 2
  · intro i n hn _
    have hmem := List.mem_of_getElem? hn
    simp only [List.mem_cons, List.not_mem_nil, or_false] at hmem
    omega
  · intro n hn
    have hsteps : (steps : Int) = n := by
      cases m <;> exact Option.some.inj hn
    subst hsteps
    exact Int.ofNat_le.2 hle
  · intro n hn
    simp only [List.mem_cons, List.not_mem_nil, or_false] at hn
    omega

theorem generated_metric (m : Metric) (onsets steps : Nat) (seed : UInt64) (span : Span) :
    generated seed (metricFamily m) [(onsets : Int), (steps : Int)] span =
      preferred m onsets steps := by
  cases m <;> rfl

theorem progressionFor_metric (m : Metric) (args : List Int) (target : Nat) (span : Span) :
    progressionFor (.transform target none) (.generator (metricFamily m) args span) =
      .transform target (.flip m) := by
  cases m <;> rfl

/-- Whatever the scores of the positions are, a metric orders all positions by them, equal ones from
left to right, and one position more in that order is one onset more. So a preferred pattern that
moves up to a target goes through the preferred patterns on the way. -/
theorem growth_by_metric (m : Metric) :
    (∀ scores steps, (rankBy (m.key scores) steps).Perm (List.range steps) ∧
      (rankBy (m.key scores) steps).Pairwise (Precedes (m.key scores))) ∧
    (∀ scores onsets steps, onsets < clampSteps steps →
      (Pattern.firstOf (rankBy (m.key scores) (clampSteps steps)) onsets steps).fill
          (rankBy (m.key scores) (clampSteps steps)) =
        some (Pattern.firstOf (rankBy (m.key scores) (clampSteps steps)) (onsets + 1) steps)) ∧
    (∀ onsets steps, onsets < clampSteps steps →
      (preferred m onsets steps).concentrate m = some (preferred m (onsets + 1) steps)) ∧
    ∀ settings onsets target steps, 0 < steps → steps ≤ maxSteps → onsets ≤ target →
      target ≤ steps →
      Shows settings (String.ofList (transformText (metricFamily m) [onsets, steps] target))
        (fun n => preferred m (min (onsets + n) target) steps) ∧
      ∀ n, Denotes (callText (metricFamily m) [(min (onsets + n) target : Nat), steps])
        (preferred m (min (onsets + n) target) steps) := by
  refine ⟨?_, ?_, ?_, ?_⟩
  · intro scores steps
    exact ⟨rankBy_perm _ _, rankBy_pairwise _ _⟩
  · intro scores onsets steps h
    exact Pattern.fill_firstOf (rankBy_perm _ _) h
  · intro onsets steps h
    exact concentrate_preferred m h
  · intro settings onsets target steps hpos hle hfrom hto
    have hbound : maxSteps ≤ maxInteger := by decide
    have hmetric : metricFamily m ≠ .random := by cases m <;> exact nofun
    constructor
    · have hcall : Callable (metricFamily m) [(onsets : Int), (steps : Int)] :=
        callable_metric m (by omega) (by omega)
      have htarget : target ≤ maxInteger := by omega
      obtain ⟨own, hshows⟩ := shows_transformText settings hcall htarget hmetric
      rw [generated_metric, progressionFor_metric] at hshows
      simp only [Evolution.current_after_preferred m hpos hle hfrom hto own] at hshows
      exact hshows
    · intro n
      have hcall : Callable (metricFamily m) [(min (onsets + n) target : Nat), (steps : Int)] :=
        callable_metric m (by omega) (by omega)
      have hdenotes := denotes_callText hcall hmetric
      rw [generated_metric] at hdenotes
      exact hdenotes

/-- One onset of four that moves up to three. -/
theorem growth_by_metric_of_four : metricFamily .barlow = .barlow ∧
    transformText .barlow [1, 4] 3 = "B(1,4)>3".toList ∧
    (preferred .barlow 1 4).concentrate .barlow = some (preferred .barlow 2 4) ∧
    Shows {} (String.ofList (transformText .barlow [1, 4] 3))
      fun n => preferred .barlow (min (1 + n) 3) 4 := by
  obtain ⟨-, -, hstep, hrun⟩ := growth_by_metric .barlow
  refine ⟨rfl, by decide +kernel, hstep 1 4 (by decide), ?_⟩
  exact (hrun {} 1 3 4 (by decide) (by decide) (by decide) (by decide)).1

variable {rotation : Int}

theorem callable_euclidean (hle : onsets ≤ steps) (hsteps : steps ≤ maxInteger)
    (hr : rotation.natAbs ≤ maxInteger) :
    Callable .euclidean [(onsets : Int), (steps : Int), rotation] := by
  refine ⟨⟨Nat.le_succ 2, Nat.le_refl 3, ?_, ?_⟩, ?_⟩
  · intro i n hn hsigned
    have hi : i ≠ 2 := by
      rintro rfl
      cases hsigned
    match i with
    | 0 => exact Option.some.inj hn ▸ Int.natCast_nonneg onsets
    | 1 => exact Option.some.inj hn ▸ Int.natCast_nonneg steps
    | 2 => exact absurd rfl hi
    | i + 3 => cases hn
  · intro n hn
    have hsteps : (steps : Int) = n := Option.some.inj hn
    subst hsteps
    exact Int.ofNat_le.2 hle
  · intro n hn
    simp only [List.mem_cons, List.not_mem_nil, or_false] at hn
    omega

theorem generated_euclidean (onsets steps : Nat) (rotation : Int) (seed : UInt64) (span : Span) :
    generated seed .euclidean [(onsets : Int), (steps : Int), rotation] span =
      (euclidean onsets steps).rotate rotation := rfl

theorem progressionFor_euclidean (args : List Int) (target : Nat) (span : Span) :
    progressionFor (.transform target none) (.generator .euclidean args span) =
      .transform target .euclidean := rfl

/-- The rotation of a Euclidean call that moves to a target, once it has come to so many onsets. -/
def rotationAt (onsets count : Nat) (rotation : Int) : Int := if count = onsets then rotation else 0

theorem current_after_rotated (hpos : 0 < steps) (hle : steps ≤ maxSteps) (honsets : onsets ≤ steps)
    (rotation : Int) (target : Nat) (seed : UInt64) (n : Nat) :
    (Evolution.after n ((euclidean onsets steps).rotate rotation)
        (.transform target .euclidean) seed).current =
      (euclidean (approached (min target steps) n onsets) steps).rotate
        (rotationAt onsets (approached (min target steps) n onsets) rotation) := by
  have hclamp := clampSteps_of_le hpos hle
  have hlength : ((euclidean onsets steps).rotate rotation).length = steps := by
    rw [Pattern.length_rotate, length_euclidean, hclamp]
  have hcount : ((euclidean onsets steps).rotate rotation).onsetCount = onsets := by
    rw [Pattern.onsetCount_rotate, onsetCount_euclidean, hclamp]
    omega
  rw [Evolution.current_after_euclidean, hlength, hcount, rotationAt]
  split
  · next hstay => rw [hstay]
  · rw [Pattern.rotate_zero]

/-- A rotated Euclidean call that moves to a target keeps its rotation as long as it keeps its
number of onsets. What it shows from the first change on is not rotated. -/
theorem rotation_until_change (settings : Settings) (onsets steps target : Nat) (rotation : Int)
    (hpos : 0 < steps) (hle : steps ≤ maxSteps) (honsets : onsets ≤ steps)
    (hr : rotation.natAbs ≤ maxInteger) (ht : target ≤ maxInteger) :
    let count := fun n => approached (min target steps) n onsets
    ∃ shown : Nat → Pattern,
      Shows settings
        (String.ofList (transformText .euclidean [onsets, steps, rotation] target)) shown ∧
      ∀ n, Denotes (callText .euclidean [count n, steps, rotationAt onsets (count n) rotation])
        (shown n) := by
  intro count
  have hbound : maxSteps ≤ maxInteger := by decide
  refine ⟨fun n => (euclidean (count n) steps).rotate (rotationAt onsets (count n) rotation),
    ?_, ?_⟩
  · obtain ⟨own, hshows⟩ := shows_transformText settings
      (callable_euclidean honsets (by omega) hr) ht (by decide)
    rw [generated_euclidean, progressionFor_euclidean] at hshows
    simp only [current_after_rotated hpos hle honsets] at hshows
    exact hshows
  · intro n
    have hcount : count n ≤ steps := by
      change approached (min target steps) n onsets ≤ steps
      unfold approached
      split <;> omega
    have hrotation : (rotationAt onsets (count n) rotation).natAbs ≤ maxInteger := by
      unfold rotationAt
      split
      · exact hr
      · decide
    have hdenotes := denotes_callText (callable_euclidean hcount (by omega) hrotation) (by decide)
    rw [generated_euclidean] at hdenotes
    exact hdenotes

/-- Three onsets of eight, one step later, that move to four. -/
theorem rotation_until_change_of_eight :
    transformText .euclidean [3, 8, 1] 4 = "E(3,8,1)>4".toList ∧
    ∃ shown, Shows {} (String.ofList (transformText .euclidean [3, 8, 1] 4)) shown ∧
      Denotes "E(3,8,1)".toList (shown 0) ∧ Denotes "E(4,8,0)".toList (shown 1) := by
  obtain ⟨shown, hshows, hdenotes⟩ := rotation_until_change {} 3 8 4 1 (by decide) (by decide)
    (by decide) (by decide) (by decide)
  have hzero : callText .euclidean [3, 8, 1] = "E(3,8,1)".toList := by decide +kernel
  have hone : callText .euclidean [4, 8, 0] = "E(4,8,0)".toList := by decide +kernel
  exact ⟨by decide +kernel, shown, hshows, hzero ▸ hdenotes 0, hone ▸ hdenotes 1⟩

/-- The first trigger comes to four onsets of eight that are not one step later. The rotation and
the target have to be numbers that the notation can tell. -/
theorem rotation_not_kept : ∃ r p,
    ((after {} [.trigger "E(3,8,1)>4"]).parse "E(3,8,1)>4").1 = .ok r ∧
    r.evaluation.pattern.bits = "10101010".toList ∧
    Denotes "E(4,8,1)".toList p ∧ p.bits = "01010101".toList ∧
    (Notation.parse "E(3,8,-9223372036854775808)>4".toList).isOk = false ∧
    (Notation.parse "E(3,8,1)>9223372036854775808".toList).isOk = false := by
  have hread : ((after {} [.trigger "E(3,8,1)>4"]).parse "E(3,8,1)>4").1.toOption.map
      (·.evaluation.pattern.bits) = some "10101010".toList := by decide +kernel
  have hcall : callText .euclidean [4, 8, 1] = "E(4,8,1)".toList := by decide +kernel
  have hcallable : Callable .euclidean [(4 : Nat), (8 : Nat), 1] :=
    callable_euclidean (by decide) (by decide) (by decide)
  have hdenotes : Denotes "E(4,8,1)".toList ((euclidean 4 8).rotate 1) :=
    hcall ▸ denotes_callText hcallable (by decide)
  cases hr : ((after {} [.trigger "E(3,8,1)>4"]).parse "E(3,8,1)>4").1 with
  | error err =>
    rw [hr] at hread
    cases hread
  | ok r =>
    rw [hr] at hread
    exact ⟨r, _, rfl, Option.some.inj hread, hdenotes, by decide +kernel, by decide +kernel,
      by decide +kernel⟩

end Rhythm.Session
