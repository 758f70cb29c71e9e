import Mathlib.Data.List.Induction
import Rhythm.Console.Command

/-! Which of several command words a line is taken for: the longest that fits, and of equal ones the
oldest. -/
namespace Rhythm.Console

open Text

/-- A line is a word, or goes on with a blank after it. -/
def Heads (word line : List Char) : Prop := line = word ∨ word ++ [' '] <+: line

instance (word line : List Char) : Decidable (Heads word line) :=
  inferInstanceAs (Decidable (_ ∨ _))

/-- The longest of the words that a line fits. -/
structure LongestWord (words : List (List Char)) (line word : List Char) : Prop where
  mem : word ∈ words
  heads : Heads word line
  length_le : ∀ w ∈ words, Heads w line → w.length ≤ word.length

variable {α : Type} {word w v line cs : List Char} {e entry : List Char × α}
  {es : List (List Char × α)}

theorem trim_blank (cs : List Char) : trim (' ' :: cs) = trim cs := by
  have hblank : isBlank ' ' = true := by decide
  rw [trim, List.dropWhile_cons_of_pos hblank, trim]

theorem heads_cons_iff {c d : Char} : Heads (c :: word) (d :: line) ↔ c = d ∧ Heads word line := by
  simp only [Heads, List.cons.injEq, List.cons_append, List.cons_prefix_cons]
  constructor
  · rintro (⟨rfl, h⟩ | ⟨rfl, h⟩)
    · exact ⟨rfl, .inl h⟩
    · exact ⟨rfl, .inr h⟩
  · rintro ⟨rfl, h | h⟩
    · exact .inl ⟨rfl, h⟩
    · exact .inr ⟨rfl, h⟩

/-- A line has an argument for just the words that it fits: all that comes after the word. -/
theorem argument?_eq (word line : List Char) : argument? word line =
    if Heads word line then some (trim (line.drop word.length)) else none := by
  induction word generalizing line with
  | nil =>
    cases line with
    | nil => rfl
    | cons d line =>
      by_cases hd : d = ' '
      · subst hd
        have hheads : Heads [] (' ' :: line) := .inr (by simp)
        rw [if_pos hheads, List.length_nil, List.drop_zero, trim_blank]
        rfl
      · have hheads : ¬ Heads [] (d :: line) := by simp [Heads, Ne.symm hd]
        rw [if_neg hheads]
        unfold argument?
        split <;> simp_all
  | cons c word ih =>
    cases line with
    | nil =>
      have hheads : ¬ Heads (c :: word) [] := by simp [Heads]
      rw [if_neg hheads]
      rfl
    | cons d line =>
      rw [argument?]
      by_cases hc : c = d
      · simp [hc, heads_cons_iff, ih]
      · simp [hc, heads_cons_iff]

theorem Heads.isPrefix (h : Heads word line) : word <+: line := by
  obtain rfl | h := h
  · exact List.prefix_refl _
  · exact (List.prefix_append word [' ']).trans h

/-- Of words that start one line, the one with more bytes has more characters. -/
theorem length_le_of_byteLength_le (hv : v <+: line) (hw : w <+: line)
    (h : byteLength v ≤ byteLength w) : v.length ≤ w.length := by
  by_contra hlt
  obtain ⟨rest, rfl⟩ := List.prefix_of_prefix_length_le hw hv (by omega)
  cases rest with
  | nil => simp at hlt
  | cons c rest =>
    have hpos := c.utf8Size_pos
    simp only [byteLength_append, byteLength] at h
    omega

theorem LongestWord.unique {words : List (List Char)} (hv : LongestWord words line v)
    (hw : LongestWord words line w) : v = w := by
  have hle := hw.length_le v hv.mem hv.heads
  have hge := hv.length_le w hw.mem hw.heads
  have hpre := List.prefix_of_prefix_length_le hv.heads.isPrefix hw.heads.isPrefix hle
  exact hpre.eq_of_length (by omega)

namespace Registry

/-- Longer words come first. -/
def Descending (es : List (List Char × α)) : Prop :=
  es.Pairwise fun e d => byteLength d.1 ≤ byteLength e.1

theorem mem_place : e ∈ place entry es ↔ e = entry ∨ e ∈ es := by
  induction es with
  | nil => simp [place]
  | cons d es ih =>
    rw [place]
    split
    · simp only [List.mem_cons, ih]
      exact or_left_comm
    · simp

theorem descending_place (h : Descending es) : Descending (place entry es) := by
  induction es with
  | nil => exact List.pairwise_singleton _ _
  | cons d es ih =>
    obtain ⟨hd, hes⟩ := List.pairwise_cons.1 h
    rw [place]
    split
    · next hle =>
      refine List.pairwise_cons.2 ⟨?_, ih hes⟩
      intro x hx
      obtain rfl | hx := mem_place.1 hx
      · exact hle
      · exact hd x hx
    · next hlt =>
      refine List.pairwise_cons.2 ⟨?_, h⟩
      intro x hx
      obtain rfl | hx := List.mem_cons.1 hx
      · omega
      · have := hd x hx
        omega

/-- Whether an entry may stand before another one. -/
def longerFirst (e d : List Char × α) : Bool := byteLength d.1 ≤ byteLength e.1

theorem longerFirst_iff {e d : List Char × α} :
    longerFirst e d = true ↔ byteLength d.1 ≤ byteLength e.1 := decide_eq_true_iff

theorem longerFirst_trans (a b c : List Char × α) (hab : longerFirst a b = true)
    (hbc : longerFirst b c = true) : longerFirst a c = true := by
  rw [longerFirst_iff] at *
  exact Nat.le_trans hbc hab

theorem longerFirst_total (a b : List Char × α) : (longerFirst a b || longerFirst b a) = true := by
  rw [Bool.or_eq_true, longerFirst_iff, longerFirst_iff]
  exact Nat.le_total ..

theorem place_of_longest (h : ∀ e ∈ es, ¬ byteLength entry.1 ≤ byteLength e.1) :
    place entry es = entry :: es := by
  cases es with
  | nil => rfl
  | cons d es => rw [place, if_neg (h d List.mem_cons_self)]

/-- An entry no shorter than the old ones behind it comes first, unless the new one is longer. -/
theorem mergeSort_cons_place {d : List Char × α} (hd : ∀ e ∈ es, byteLength e.1 ≤ byteLength d.1)
    (h : (es ++ [entry]).mergeSort longerFirst = place entry es) :
    (d :: (es ++ [entry])).mergeSort longerFirst = place entry (d :: es) := by
  obtain ⟨front, back, hsorted, hothers, hfront⟩ :=
    List.mergeSort_cons longerFirst_trans longerFirst_total d (es ++ [entry])
  have horder := List.pairwise_mergeSort longerFirst_trans longerFirst_total (d :: (es ++ [entry]))
  have hlonger : ∀ x ∈ front, ¬ byteLength x.1 ≤ byteLength d.1 := by
    intro x hx hle
    have hbefore := hfront x hx
    rw [longerFirst_iff.2 hle] at hbefore
    cases hbefore
  rw [hsorted] at horder
  rw [h] at hothers
  rw [hsorted, place]
  -- only the new entry can have come to stand before `d`
  split
  · next hle =>
    cases front with
    | nil => rw [hothers, List.nil_append, List.nil_append]
    | cons x front =>
      have hx : x ∈ place entry es := hothers ▸ List.mem_cons_self
      have hno := hlonger x List.mem_cons_self
      obtain rfl | hx := mem_place.1 hx
      · exact absurd hle hno
      · exact absurd (hd x hx) hno
  · next hlt =>
    rw [place_of_longest fun e he hle => hlt (Nat.le_trans hle (hd e he))] at hothers
    cases front with
    | nil =>
      rw [List.nil_append] at hothers
      have hback : entry ∈ back := hothers ▸ List.mem_cons_self
      exact absurd (longerFirst_iff.1 ((List.pairwise_cons.1 horder).1 entry hback)) hlt
    | cons x front =>
      obtain ⟨rfl, rfl⟩ := List.cons.inj hothers
      cases front with
      | nil => rfl
      | cons y front =>
        have hy := hd y (List.mem_append_left back List.mem_cons_self)
        exact absurd hy (hlonger y (List.mem_cons_of_mem _ List.mem_cons_self))

/-- A new entry is put where it would come to stand if it were put last and all entries were sorted
by a sort that is stable. -/
theorem place_eq_mergeSort (h : Descending es) :
    place entry es = (es ++ [entry]).mergeSort longerFirst := by
  induction es with
  | nil => exact (List.mergeSort_singleton entry).symm
  | cons d es ih =>
    obtain ⟨hd, hes⟩ := List.pairwise_cons.1 h
    exact (mergeSort_cons_place hd (ih hes).symm).symm

/-- A new entry comes after the old ones with its word. -/
theorem filter_place (h : Descending es) (word : List Char) :
    (place entry es).filter (fun e => e.1 = word) =
      es.filter (fun e => e.1 = word) ++ [entry].filter fun e => e.1 = word := by
  induction es with
  | nil => rfl
  | cons d es ih =>
    obtain ⟨hd, hes⟩ := List.pairwise_cons.1 h
    rw [place]
    split
    · rw [List.filter_cons, ih hes, List.filter_cons (x := d)]
      split <;> rfl
    · next hlt =>
      by_cases hword : entry.1 = word
      · -- every entry behind the new one has a shorter word
        have hnone : (d :: es).filter (fun e => e.1 = word) = [] := by
          rw [List.filter_eq_nil_iff]
          intro x hx
          have hx : byteLength x.1 ≤ byteLength d.1 := by
            obtain rfl | hx := List.mem_cons.1 hx
            · exact Nat.le_refl _
            · exact hd x hx
          rw [decide_eq_true_eq]
          rintro rfl
          rw [hword] at hlt
          omega
        rw [List.filter_cons, hnone]
        simp [hword]
      · rw [List.filter_cons]
        simp [hword]

theorem ofList_append (es : List (List Char × α)) (entry : List Char × α) :
    ofList (es ++ [entry]) = (ofList es).register entry.1 entry.2 := by
  rw [ofList, List.foldl_append]
  rfl

theorem descending_ofList (es : List (List Char × α)) : Descending (ofList es).entries := by
  induction es using List.reverseRecOn with
  | nil => exact List.Pairwise.nil
  | append_singleton es entry ih =>
    rw [ofList_append]
    exact descending_place ih

/-- Registering a word is putting its entry last and sorting. -/
theorem entries_register (es : List (List Char × α)) (word : List Char) (a : α) :
    ((ofList es).register word a).entries =
      ((ofList es).entries ++ [(word, a)]).mergeSort longerFirst :=
  place_eq_mergeSort (descending_ofList es)

/-- The entries with one word are in the order of their registration. -/
theorem filter_ofList (es : List (List Char × α)) (word : List Char) :
    (ofList es).entries.filter (fun e => e.1 = word) = es.filter fun e => e.1 = word := by
  induction es using List.reverseRecOn with
  | nil => rfl
  | append_singleton es entry ih =>
    rw [ofList_append, List.filter_append, ← ih]
    exact filter_place (descending_ofList es) word

theorem find?_ofList (es : List (List Char × α)) (word : List Char) :
    (ofList es).entries.find? (fun e => e.1 = word) = es.find? fun e => e.1 = word := by
  rw [← List.head?_filter, filter_ofList, List.head?_filter]

theorem mem_ofList : e ∈ (ofList es).entries ↔ e ∈ es := by
  have hfilter : ∀ l : List (List Char × α), e ∈ l ↔ e ∈ l.filter fun d => d.1 = e.1 := by
    intro l
    simp
  rw [hfilter, filter_ofList, ← hfilter]

theorem lookup_eq (r : Registry α) (line : List Char) : r.lookup line =
    (r.entries.find? fun e => Heads e.1 line).map
      fun e => (e.2, trim (line.drop e.1.length)) := by
  rw [lookup]
  induction r.entries with
  | nil => rfl
  | cons d es ih =>
    rw [List.findSome?_cons, List.find?_cons, argument?_eq]
    by_cases hd : Heads d.1 line
    · simp [hd]
    · simp [hd, ih]

theorem lookup_eq_none_iff (es : List (List Char × α)) (line : List Char) :
    (ofList es).lookup line = none ↔ ∀ e ∈ es, ¬ Heads e.1 line := by
  simp [lookup_eq, mem_ofList]

/-- The first entry that a line fits has the longest such word, and is the oldest with it. -/
theorem longestWord_of_find? (h : (ofList es).entries.find? (fun e => Heads e.1 line) = some e) :
    LongestWord (es.map (·.1)) line e.1 ∧ es.find? (fun d => d.1 = e.1) = some e := by
  obtain ⟨hfits, before, after, hsplit, hbefore⟩ := List.find?_eq_some_iff_append.1 h
  have hheads : Heads e.1 line := of_decide_eq_true hfits
  have hmem : e ∈ es := mem_ofList.1 (hsplit ▸ List.mem_append_right _ List.mem_cons_self)
  have hsorted := descending_ofList es
  rw [hsplit] at hsorted
  have hafter := (List.pairwise_cons.1 (List.pairwise_append.1 hsorted).2.1).1
  refine ⟨⟨List.mem_map_of_mem hmem, hheads, ?_⟩, ?_⟩
  · intro w hw hwl
    obtain ⟨d, hd, rfl⟩ := List.mem_map.1 hw
    have hd := mem_ofList.2 hd
    rw [hsplit] at hd
    obtain hd | hd := List.mem_append.1 hd
    · have hno := hbefore d hd
      simp [hwl] at hno
    · obtain rfl | hd := List.mem_cons.1 hd
      · exact Nat.le_refl _
      · exact length_le_of_byteLength_le hwl.isPrefix hheads.isPrefix (hafter d hd)
  · rw [← find?_ofList, List.find?_eq_some_iff_append]
    refine ⟨by simp, before, after, hsplit, ?_⟩
    intro d hd
    have hno := hbefore d hd
    by_cases hword : d.1 = e.1
    · rw [hword] at hno
      simp [hheads] at hno
    · simp [hword]

theorem lookup_eq_some_iff (es : List (List Char × α)) (line : List Char) (a : α)
    (args : List Char) : (ofList es).lookup line = some (a, args) ↔
      ∃ word, LongestWord (es.map (·.1)) line word ∧
        es.find? (fun e => e.1 = word) = some (word, a) ∧
          args = trim (line.drop word.length) := by
  rw [lookup_eq]
  constructor
  · intro h
    obtain ⟨e, he, hargs⟩ := Option.map_eq_some_iff.1 h
    cases hargs
    obtain ⟨hlongest, holdest⟩ := longestWord_of_find? he
    exact ⟨e.1, hlongest, holdest, rfl⟩
  · rintro ⟨word, hlongest, holdest, rfl⟩
    cases he : (ofList es).entries.find? fun e => Heads e.1 line with
    | none =>
      obtain ⟨e, hmem, rfl⟩ := List.mem_map.1 hlongest.mem
      have hno := List.find?_eq_none.1 he e (mem_ofList.2 hmem)
      simp [hlongest.heads] at hno
    | some e =>
      obtain ⟨hlongest', holdest'⟩ := longestWord_of_find? he
      rw [hlongest'.unique hlongest, holdest] at holdest'
      cases holdest'
      rfl

end Registry

/-- Whatever words are registered, and in whatever order: a line is taken for the longest word that
it fits, and for the oldest entry with this word. What comes after the word, without the blanks
around it, are the arguments. A line is no command if and only if it fits no word. -/
theorem longest_word_runs {α : Type} (es : List (List Char × α)) (line : List Char) :
    (∀ a args, (Registry.ofList es).lookup line = some (a, args) ↔
      ∃ word, LongestWord (es.map (·.1)) line word ∧
        es.find? (fun e => e.1 = word) = some (word, a) ∧ args = trim (line.drop word.length)) ∧
    ((Registry.ofList es).lookup line = none ↔ ∀ e ∈ es, ¬ Heads e.1 line) ∧
    ∀ (ds : List (List Char × Command)) (c : Console),
      (∀ r, c.execute? (Registry.ofList ds) line = some r ↔
        ∃ word command, LongestWord (ds.map (·.1)) line word ∧
          ds.find? (fun e => e.1 = word) = some (word, command) ∧
            r = command.run (trim (line.drop word.length)) c) ∧
      (c.execute? (Registry.ofList ds) line = none ↔ ∀ e ∈ ds, ¬ Heads e.1 line) := by
  refine ⟨Registry.lookup_eq_some_iff es line, Registry.lookup_eq_none_iff es line, ?_⟩
  intro ds c
  rw [execute?]
  refine ⟨?_, ?_⟩
  · intro r
    rw [Option.map_eq_some_iff]
    constructor
    · rintro ⟨⟨command, args⟩, hlookup, rfl⟩
      obtain ⟨word, hlongest, holdest, rfl⟩ := (Registry.lookup_eq_some_iff ..).1 hlookup
      exact ⟨word, command, hlongest, holdest, rfl⟩
    · rintro ⟨word, command, hlongest, holdest, rfl⟩
      have hlookup := (Registry.lookup_eq_some_iff ds line command _).2
        ⟨word, hlongest, holdest, rfl⟩
      exact ⟨_, hlookup, rfl⟩
  · rw [Option.map_eq_none_iff, Registry.lookup_eq_none_iff]

/-- Of two words that a line fits, the longer one counts. -/
example : commands.lookup "reset all  ".toList = some (.resetAll, []) := by decide +kernel

end Rhythm.Console
