import Mathlib.Data.List.Forall2
import Mathlib.Data.List.TakeWhile
import Rhythm.Text.Letter
import Rhythm.Text.Numeral

/-! Texts that differ only in the case of ASCII letters. -/
namespace Rhythm.Text

/-- Equal up to the case of ASCII letters. -/
def SameLetters (a b : List Char) : Prop := a.map Char.toLower = b.map Char.toLower

instance (a b : List Char) : Decidable (SameLetters a b) :=
  inferInstanceAs (Decidable (a.map Char.toLower = b.map Char.toLower))

/-- A property of characters that a letter has in both cases or in none. -/
def CaseBlind {α : Type} (f : Char → α) : Prop := ∀ c, f c.toLower = f c

variable {α : Type} {f : Char → α} {p : Char → Bool} {c d : Char} {a b : List Char}

/-- Only a capital has another lower case. -/
theorem toLower_eq_self (h : ¬ ∃ n < 26, c = Char.ofNat (65 + n)) : c.toLower = c := by
  unfold Char.toLower
  rw [dif_neg]
  rintro ⟨hle, hle'⟩
  have hA : 65 ≤ c.toNat := hle
  have hZ : c.toNat ≤ 90 := hle'
  refine h ⟨c.toNat - 65, by omega, ?_⟩
  rw [Nat.add_sub_cancel' hA, Char.ofNat_toNat]

/-- Only the capitals have to be looked at. -/
theorem caseBlind_of_capitals
    (h : ∀ n < 26, f (Char.ofNat (65 + n)).toLower = f (Char.ofNat (65 + n))) : CaseBlind f := by
  intro c
  by_cases hc : ∃ n < 26, c = Char.ofNat (65 + n)
  · obtain ⟨n, hn, rfl⟩ := hc
    exact h n hn
  · rw [toLower_eq_self hc]

/-- A character that has a lower case is that lower case or a capital. -/
theorem mem_of_toLower {ds : List Char} (hd : d ∈ ds)
    (hcapital : ∀ n < 26, (Char.ofNat (65 + n)).toLower = d → Char.ofNat (65 + n) ∈ ds)
    (h : c.toLower = d) : c ∈ ds := by
  by_cases hc : ∃ n < 26, c = Char.ofNat (65 + n)
  · obtain ⟨n, hn, rfl⟩ := hc
    exact hcapital n hn h
  · rw [toLower_eq_self hc] at h
    rwa [h]

theorem CaseBlind.eq (hf : CaseBlind f) (h : c.toLower = d.toLower) : f c = f d := by
  rw [← hf c, h, hf d]

theorem caseBlind_isDigit : CaseBlind Char.isDigit := caseBlind_of_capitals (by decide)

theorem caseBlind_isAlphabetic : CaseBlind isAlphabetic := caseBlind_of_capitals (by decide +kernel)

theorem caseBlind_toUpper : CaseBlind Char.toUpper := caseBlind_of_capitals (by decide +kernel)

theorem caseBlind_digit? (base : Nat) : CaseBlind (digit? base) := by
  have hvalue : CaseBlind fun c : Char =>
      if c.isDigit then c.toNat - 48
      else if 'a' ≤ c ∧ c ≤ 'f' then c.toNat - 87
      else if 'A' ≤ c ∧ c ≤ 'F' then c.toNat - 55
      else 16 := caseBlind_of_capitals (by decide +kernel)
  intro c
  have := hvalue c
  dsimp only at this
  simp only [digit?, this]

/-- Digits have no case. -/
theorem toLower_of_isDigit (h : c.isDigit = true) : c.toLower = c := by
  apply toLower_eq_self
  rintro ⟨n, hn, rfl⟩
  have hno : ∀ n < 26, (Char.ofNat (65 + n)).isDigit = false := by decide
  rw [hno n hn] at h
  cases h

/-- A character that is no letter stands for itself. -/
theorem eq_iff_of_toLower
    (hd : ∀ n < 26, (Char.ofNat (65 + n)).toLower = d ↔ Char.ofNat (65 + n) = d) {c c' : Char}
    (h : c.toLower = c'.toLower) : c = d ↔ c' = d := by
  have hblind : CaseBlind fun c => decide (c = d) :=
    caseBlind_of_capitals fun n hn => decide_eq_decide.2 (hd n hn)
  exact decide_eq_decide.1 (hblind.eq h)

theorem sameLetters_iff :
    SameLetters a b ↔ List.Forall₂ (fun c d => c.toLower = d.toLower) a b := by
  rw [SameLetters, ← List.forall₂_eq_eq_eq, List.forall₂_map_left_iff,
    List.forall₂_map_right_iff]

theorem SameLetters.refl (a : List Char) : SameLetters a a := rfl

theorem SameLetters.symm (h : SameLetters a b) : SameLetters b a := Eq.symm h

theorem SameLetters.length_eq (h : SameLetters a b) : a.length = b.length := by
  simpa using congrArg List.length h

theorem SameLetters.isEmpty_eq (h : SameLetters a b) : a.isEmpty = b.isEmpty := by
  simpa using congrArg List.isEmpty h

theorem SameLetters.cons (h : c.toLower = d.toLower) (hs : SameLetters a b) :
    SameLetters (c :: a) (d :: b) := by
  rw [SameLetters, List.map_cons, List.map_cons, h, hs]

theorem SameLetters.exists_cons (h : SameLetters (c :: a) b) :
    ∃ d b', b = d :: b' ∧ c.toLower = d.toLower ∧ SameLetters a b' := by
  cases b with
  | nil => cases h
  | cons d b' =>
    obtain ⟨hd, hs⟩ := List.cons.inj h
    exact ⟨d, b', rfl, hd, hs⟩

theorem SameLetters.eq_nil (h : SameLetters [] b) : b = [] := by
  cases b with
  | nil => rfl
  | cons => cases h

theorem SameLetters.headD (h : SameLetters a b) : (a.headD d).toLower = (b.headD d).toLower := by
  cases a with
  | nil => rw [h.eq_nil]
  | cons c a =>
    obtain ⟨c', b', rfl, hc, -⟩ := h.exists_cons
    exact hc

theorem SameLetters.tail (h : SameLetters a b) : SameLetters a.tail b.tail := by
  rw [SameLetters, List.map_tail, List.map_tail, h]

theorem SameLetters.drop (h : SameLetters a b) (n : Nat) : SameLetters (a.drop n) (b.drop n) := by
  rw [SameLetters, List.map_drop, List.map_drop, h]

theorem SameLetters.takeWhile (hp : CaseBlind p) (h : SameLetters a b) :
    SameLetters (a.takeWhile p) (b.takeWhile p) := by
  have hcomp : p ∘ Char.toLower = p := funext hp
  have htake : ∀ cs : List Char,
      (cs.takeWhile p).map Char.toLower = (cs.map Char.toLower).takeWhile p := by
    intro cs
    rw [List.takeWhile_map, hcomp]
  rw [SameLetters, htake, htake, h]

theorem SameLetters.flatMap_eq {f : Char → List α} (hf : CaseBlind f) (h : SameLetters a b) :
    a.flatMap f = b.flatMap f := by
  have hcomp : (fun c : Char => f c.toLower) = f := funext hf
  have hmap : ∀ cs : List Char, cs.flatMap f = (cs.map Char.toLower).flatMap f := by
    intro cs
    rw [List.flatMap_map, hcomp]
  rw [hmap a, h, ← hmap b]

theorem map_toLower_of_digits (h : ∀ c ∈ a, c.isDigit = true) : a.map Char.toLower = a := by
  rw [List.map_congr_left fun c hc => toLower_of_isDigit (h c hc), List.map_id']

theorem SameLetters.takeWhile_isDigit (h : SameLetters a b) :
    a.takeWhile Char.isDigit = b.takeWhile Char.isDigit := by
  have hs := h.takeWhile caseBlind_isDigit
  have hdigit : ∀ (cs : List Char), ∀ c ∈ cs.takeWhile Char.isDigit, c.isDigit = true := by
    intro cs c hc
    exact List.mem_takeWhile_imp hc
  rwa [SameLetters, map_toLower_of_digits (hdigit a), map_toLower_of_digits (hdigit b)] at hs

theorem SameLetters.sameWord_eq (h : SameLetters a b) (w : List Char) :
    sameWord a w = sameWord b w := by
  rw [sameWord, sameWord, h]

end Rhythm.Text
