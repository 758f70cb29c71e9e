import Rhythm.Proofs.Console.Calls
import Rhythm.Proofs.Console.Registry

/-! Only `tick`, `reset`, `reset all` and `forget` move what is kept. After any other line every
kept text stands where it stood, unless the line drops it. -/
namespace Rhythm

open Console Notation Performance Session Text

variable {settings : Settings} {colored : Bool} {args line : List Char} {text : String}
  {c d : Console} {s : Shell} {read : String → Id (Option String)} {p : Performance}

namespace Console

/-- The words of the commands that move what is kept. -/
def movingWords : List (List Char) :=
  ["tick".toList, "reset".toList, "reset all".toList, "forget".toList]

def Command.moves : Command → Bool
  | .tick | .reset | .resetAll | .forget => true
  | _ => false

theorem mem_movingWords {e : List Char × Command} (he : e ∈ commands.entries)
    (hm : e.2.moves = true) : e.1 ∈ movingWords := by
  have hall : ∀ e ∈ commands.entries, e.2.moves = true → e.1 ∈ movingWords := by decide
  exact hall e he hm

theorem quiet_map_toList {call : String → Call} (hcall : ∀ t, (call t).isQuiet = true)
    (target? : Option String) : ∀ a ∈ target?.toList.map call, a.isQuiet = true := by
  intro a ha
  obtain ⟨t, -, rfl⟩ := List.mem_map.1 ha
  exact hcall t

/-- All other commands read texts and ask about them. -/
theorem Command.quiet_calls {command : Command} (hm : command.moves = false) (args : List Char)
    (c : Console) : ∀ a ∈ command.calls args c, a.isQuiet = true := by
  cases command with
  | tick | reset | resetAll | forget => cases hm
  | state => exact quiet_map_toList (fun _ => rfl) _
  | quantize => exact quiet_map_toList (fun _ => rfl) _
  | accents => exact quiet_map_toList (fun _ => rfl) _
  | help | quit | watch | seed | capacity => exact fun a ha => (List.not_mem_nil ha).elim

/-- A line that starts with none of the four words is another command or a text. -/
theorem quiet_calls (hl : ∀ w ∈ movingWords, ¬ Heads w line) (c : Console) :
    ∀ a ∈ c.calls line, a.isQuiet = true := by
  unfold calls
  cases hlookup : commands.lookup line with
  | none =>
    intro a ha
    rw [List.mem_singleton.1 ha]
    rfl
  | some found =>
    rw [Registry.lookup_eq] at hlookup
    obtain ⟨e, he, rfl⟩ := Option.map_eq_some_iff.1 hlookup
    have hmem := List.mem_of_find?_eq_some he
    have hheads : Heads e.1 line := of_decide_eq_true (List.find?_some he :)
    have hmoves : e.2.moves = false :=
      Bool.eq_false_iff.2 fun hm => hl e.1 (mem_movingWords hmem hm) hheads
    exact Command.quiet_calls hmoves _ c

theorem display_fst (line : List Char) (c : Console) :
    (c.display line).1 = .message (report c.colored (c.session.parse (String.ofList line)).1) :=
  rfl

theorem run_tick_fst (ha : args.isEmpty = false) (c : Console) :
    (Command.tick.run args c).1 =
      .message (report c.colored (c.session.trigger (String.ofList args)).1) := by
  simp only [Command.run, onTarget, ha]
  rfl

theorem display_eq_of_sameReadings (hc : d.colored = c.colored)
    (h : SameReadings text c.session d.session) :
    (d.display text.toList).1 = (c.display text.toList).1 := by
  rw [display_fst, display_fst, String.ofList_toList, hc, h.1]

theorem tick_eq_of_sameReadings (ht : text.toList.isEmpty = false) (hc : d.colored = c.colored)
    (h : SameReadings text c.session d.session) :
    (Command.tick.run text.toList d).1 = (Command.tick.run text.toList c).1 := by
  rw [run_tick_fst ht, run_tick_fst ht, String.ofList_toList, hc, h.2]

end Console

namespace Session

theorem isEmpty_of_keepable (h : Keepable text) : text.toList.isEmpty = false := by
  have hempty : ¬ Keepable "" := by decide +kernel
  rw [List.isEmpty_eq_false_iff]
  intro ht
  rw [String.toList_eq_nil_iff.1 ht] at h
  exact hempty h

end Session

namespace Shell

/-- The calls of a file that is read are quiet as well. -/
theorem quiet_calls (hl : ∀ w ∈ movingWords, ¬ Heads w (typed line))
    (read : String → Id (Option String)) (s : Shell) :
    ∀ a ∈ s.calls read line, a.isQuiet = true := by
  unfold calls
  split
  · exact fun a ha => (List.not_mem_nil ha).elim
  · refine List.forall_mem_append.2 ⟨Console.quiet_calls hl s.console, ?_⟩
    split
    · next path _ =>
      cases (read path).run with
      | none => exact fun a ha => (List.not_mem_nil ha).elim
      | some contents =>
        intro a ha
        obtain ⟨t, -, rfl⟩ := List.mem_map.1 ha
        rfl
    · exact fun a ha => (List.not_mem_nil ha).elim

/-- Whatever was typed and read before: a line that is no `tick`, `reset`, `reset all` or `forget`
only reads texts and asks about them. A kept text that none of this drops has the same scenes
afterwards with evolutions that have come as far, it is the same scene's turn after as many
triggers, and to read the text or trigger it next brings what it would have brought before the
line. -/
theorem standing_after_line (read : String → Id (Option String)) (line : List Char)
    (hs : Reachable settings colored s) (hl : ∀ w ∈ movingWords, ¬ Heads w (typed line))
    (hp : s.console.session.store.peek? text = some p)
    (hd : ¬ Drops text s.console.session (s.calls read line)) :
    (s.next read line).console.session = s.console.session.serveAll (s.calls read line) ∧
      (∀ a ∈ s.calls read line, a.isQuiet = true) ∧
      (∃ q, (s.next read line).console.session.store.peek? text = some q ∧ SameStanding p q) ∧
      SameReadings text s.console.session (s.next read line).console.session ∧
      ((s.next read line).console.display text.toList).1 = (s.console.display text.toList).1 ∧
      (Command.tick.run text.toList (s.next read line).console).1 =
        (Command.tick.run text.toList s.console).1 := by
  have hquiet := quiet_calls hl read s
  obtain ⟨hsession, hcolored⟩ := after_next read line s
  obtain ⟨history, hhistory⟩ := exists_history hs
  have htext := isEmpty_of_keepable (keepable_of_contains
    (contains_of_peek? (hhistory ▸ hp : (after settings history).store.peek? text = some p)))
  have hstanding : (∃ q, (s.next read line).console.session.store.peek? text = some q ∧
      SameStanding p q) ∧
        SameReadings text s.console.session (s.next read line).console.session := by
    rw [hsession, hhistory]
    rw [hhistory] at hp hd
    exact ⟨(sameStanding_serveAll hquiet hp hd).1, sameReadings_serveAll hquiet hp hd⟩
  obtain ⟨hkept, hreadings⟩ := hstanding
  exact ⟨hsession, hquiet, hkept, hreadings, display_eq_of_sameReadings hcolored hreadings,
    tick_eq_of_sameReadings htext hcolored hreadings⟩

theorem turn_eq_next (h : (s.turn read line).2.isSome = true) :
    s.turn read line = ((s.turn read line).1, some (s.next read line)) := by
  obtain ⟨t, ht⟩ := Option.isSome_iff_exists.1 h
  exact Prod.ext rfl (by rw [next, ht, Option.getD_some])

/-- A text that was triggered once, and then a line that projects another one. -/
theorem standing_after_line_of_projection :
    ∃ (s : Shell) (p q : Performance), Reachable {} false s ∧
      (s.console.session.state? "E(1,4)>4|0000").map (·.triggers) = some 1 ∧
      s.console.session.store.peek? "E(1,4)>4|0000" = some p ∧
      (s.next (fun _ => none) "quantize E(3,8) 5".toList).console.session.store.peek?
        "E(1,4)>4|0000" = some q ∧ SameStanding p q ∧
      SameReadings "E(1,4)>4|0000" s.console.session
        (s.next (fun _ => none) "quantize E(3,8) 5".toList).console.session := by
  have hs : Reachable {} false
      ((Shell.new {} false).next (fun _ => none) "tick E(1,4)>4|0000".toList) :=
    .turn .new (turn_eq_next (by decide +kernel))
  have hkept : (((Shell.new {} false).next (fun _ => none)
      "tick E(1,4)>4|0000".toList).console.session.store.peek? "E(1,4)>4|0000").isSome = true := by
    decide +kernel
  obtain ⟨p, hp⟩ := Option.isSome_iff_exists.1 hkept
  obtain ⟨-, -, ⟨q, hq, hpq⟩, hreadings, -⟩ :=
    standing_after_line (fun _ => none) "quantize E(3,8) 5".toList hs (by decide +kernel) hp
      (by decide +kernel)
  exact ⟨_, p, q, hs, by decide +kernel, hp, hq, hpq, hreadings⟩

end Shell

end Rhythm
