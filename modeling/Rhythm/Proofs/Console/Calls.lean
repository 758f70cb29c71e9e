import Rhythm.Console.Shell
import Rhythm.Proofs.Session.Standing

/-! What lines ask of the session: every line of a console is a few calls, and so is a file that is
read. -/
namespace Rhythm

open Console Session Text

namespace Console

variable {args line : List Char} {c d e : Console} {cs ds : List Call}

/-- The text that a command is about: the one it names, else the one in hand. -/
def target? (args : List Char) (c : Console) : Option String :=
  (if args.isEmpty then none else some (String.ofList args)).or c.current

/-- The text that is read to be projected, if the arguments are in order. -/
def quantizeSource? (args : List Char) : Option String :=
  match words args with
  | [source, steps] => (count? steps).map fun _ => String.ofList source
  | [source, steps, direction] =>
    if direction = "ccw".toList then (count? steps).map fun _ => String.ofList source else none
  | _ => none

/-- The calls that a command makes. -/
def Command.calls (command : Command) (args : List Char) (c : Console) : List Call :=
  match command with
  | .tick => (c.target? args).toList.map .trigger
  | .reset => (c.target? args).toList.map .reset
  | .resetAll => [.resetAll]
  | .forget => (c.target? args).toList.map .forget
  | .state => (c.target? args).toList.map .state
  | .quantize => (quantizeSource? args).toList.map .parse
  | .accents => (c.target? args).toList.map .parse
  | .help | .quit | .watch | .seed | .capacity => []

/-- The calls that a line makes. One that is no command is read as a text. -/
def calls (line : List Char) (c : Console) : List Call :=
  match commands.lookup line with
  | some (command, args) => command.calls args c
  | none => [.parse (String.ofList line)]

/-- One console is another one after calls of its session. -/
structure After (c : Console) (cs : List Call) (d : Console) : Prop where
  session_eq : d.session = c.session.serveAll cs
  colored_eq : d.colored = c.colored

theorem After.refl (c : Console) : c.After [] c := ⟨rfl, rfl⟩

theorem After.trans (h : c.After cs d) (h' : d.After ds e) : c.After (cs ++ ds) e where
  session_eq := by rw [h'.session_eq, h.session_eq, serveAll_append]
  colored_eq := h'.colored_eq.trans h.colored_eq

theorem after_onTarget {call : String → Call} {run : String → Reply × Console}
    (hrun : ∀ text, c.After [call text] (run text).2) :
    c.After ((c.target? args).toList.map call) (c.onTarget args run).2 := by
  unfold onTarget target?
  dsimp only
  cases (if args.isEmpty then none else some (String.ofList args)).or c.current with
  | none => exact .refl c
  | some text => exact hrun text

theorem after_quantized (source : String) (steps : Nat) (clockwise : Bool) (c : Console) :
    c.After [.parse source] (c.quantized source steps clockwise).2 := by
  have hparse : (c.session.parse source).2 = c.session.serveAll [.parse source] := rfl
  unfold quantized
  generalize c.session.parse source = read at hparse ⊢
  obtain ⟨result, session⟩ := read
  cases result with
  | error err => exact ⟨hparse, rfl⟩
  | ok r =>
    dsimp only
    split <;> exact ⟨hparse, rfl⟩

theorem after_runQuantize (args : List Char) (c : Console) :
    c.After ((quantizeSource? args).toList.map .parse) (c.runQuantize args).2 := by
  unfold runQuantize quantizeSource?
  match words args with
  | [] | [_] | _ :: _ :: _ :: _ :: _ => exact .refl c
  | [source, steps] =>
    dsimp only
    cases count? steps with
    | none => exact .refl c
    | some n => exact after_quantized ..
  | [source, steps, direction] =>
    dsimp only
    split
    · cases count? steps with
      | none => exact .refl c
      | some n => exact after_quantized ..
    · exact .refl c

theorem after_runAccents (text : String) (c : Console) :
    c.After [.parse text] (c.runAccents text).2 := by
  have hparse : (c.session.parse text).2 = c.session.serveAll [.parse text] := rfl
  unfold runAccents
  generalize c.session.parse text = read at hparse ⊢
  obtain ⟨result, session⟩ := read
  dsimp only
  split <;> exact ⟨hparse, rfl⟩

/-- A command does to the session what its calls do. -/
theorem after_run (command : Command) (args : List Char) (c : Console) :
    c.After (command.calls args c) (command.run args c).2 := by
  cases command with
  | tick => exact after_onTarget fun _ => ⟨rfl, rfl⟩
  | reset => exact after_onTarget fun _ => ⟨rfl, rfl⟩
  | resetAll => exact ⟨rfl, rfl⟩
  | forget => exact after_onTarget fun _ => ⟨rfl, rfl⟩
  | state =>
    refine after_onTarget fun text => ?_
    cases c.session.state? text <;> exact ⟨rfl, rfl⟩
  | quantize => exact after_runQuantize args c
  | accents => exact after_onTarget fun text => after_runAccents text c
  | help | quit | watch | seed | capacity => exact .refl c

/-- A line does to the session what its calls do. -/
theorem after_answer (line : List Char) (c : Console) :
    c.After (c.calls line) (c.answer line).2 := by
  unfold answer execute? calls
  cases commands.lookup line with
  | none => exact ⟨rfl, rfl⟩
  | some found => exact after_run found.1 found.2 c

end Console

namespace Shell

variable {settings : Settings} {colored : Bool} {s t : Shell} {line : List Char}
  {shown : List String} {read : String → Id (Option String)}

/-- The line that is left of what was typed. -/
def typed (line : List Char) : List Char := trim (TypedLine.ofText line).chars

/-- The calls that reading a file makes. -/
def fileCalls (contents : List Char) : List Call :=
  (fileTexts contents).map fun t => .parse (String.ofList t)

/-- The calls that a line makes. A file that is watched from now on is read at once. -/
def calls (read : String → Id (Option String)) (line : List Char) (s : Shell) : List Call :=
  if (typed line).isEmpty then []
  else s.console.calls (typed line) ++
    match (s.console.answer (typed line)).1 with
    | .watch path => (((read path).run.map fun contents => fileCalls contents.toList)).getD []
    | _ => []

theorem session_reloadTexts (colored : Bool) (s : Session) (ts : List (List Char)) :
    (reloadTexts colored s ts).2.2 =
      s.serveAll (ts.map fun t => .parse (String.ofList t)) := by
  induction ts generalizing s with
  | nil => rfl
  | cons t ts ih =>
    have hrest : (reloadTexts colored s (t :: ts)).2.2 =
        (reloadTexts colored (s.parse (String.ofList t)).2 ts).2.2 := by
      rw [reloadTexts]
      dsimp only
      split <;> rfl
    exact hrest.trans (ih _)

theorem after_reload (contents : List Char) (s : Shell) :
    s.console.After (fileCalls contents) (s.reload contents).2.console :=
  ⟨session_reloadTexts .., rfl⟩

theorem after_watch (path : String) (contents? : Option String) (s : Shell) :
    s.console.After ((contents?.map fun contents => fileCalls contents.toList).getD [])
      (s.watch path contents?).2.console := by
  cases contents? with
  | none => exact .refl _
  | some contents =>
    have hconsole : (s.addWatched path).console = s.console := by
      unfold addWatched
      split <;> rfl
    have hreload := after_reload contents.toList (s.addWatched path)
    rw [hconsole] at hreload
    exact hreload

theorem turn_of_isEmpty (read : String → Id (Option String)) (s : Shell)
    (h : (typed line).isEmpty = true) : s.turn read line = ([], some s) :=
  if_pos h

theorem turn_of_reply (read : String → Id (Option String)) (s : Shell) {reply : Reply} {c : Console}
    (h : (typed line).isEmpty = false) (hc : s.console.answer (typed line) = (reply, c)) :
    s.turn read line =
      match reply with
      | .message text => ([text], some { s with console := c })
      | .failure text => ([errorLine c.colored text], some { s with console := c })
      | .watch path =>
        let (lines, t) := { s with console := c }.watch path (read path)
        (lines, some t)
      | .quit => ([farewell c.colored], none) := by
  unfold typed at h hc
  unfold turn
  simp only [h, hc]
  cases reply <;> rfl

/-- The shell as a line leaves it, also where the line ends it. -/
def next (read : String → Id (Option String)) (line : List Char) (s : Shell) : Shell :=
  (s.turn read line).2.getD { s with console := (s.console.answer (typed line)).2 }

theorem next_of_turn (h : s.turn read line = (shown, some t)) : s.next read line = t := by
  rw [next, h, Option.getD_some]

/-- A line does to the session what its calls do, those of a file included. -/
theorem after_next (read : String → Id (Option String)) (line : List Char) (s : Shell) :
    s.console.After (s.calls read line) (s.next read line).console := by
  have hanswer := after_answer (typed line) s.console
  unfold calls next
  cases hline : (typed line).isEmpty with
  | true =>
    rw [turn_of_isEmpty read s hline]
    exact .refl _
  | false =>
    rcases hreply : s.console.answer (typed line) with ⟨reply, c⟩
    rw [turn_of_reply read s hline hreply]
    rw [hreply] at hanswer
    cases reply with
    | watch path => exact hanswer.trans (after_watch path (read path) { s with console := c })
    | message | failure | quit => exact (List.append_nil _).symm ▸ hanswer

/-- The shells that a new one can come to, whatever is typed, whatever is in the files when they are
read, and whenever a watched file changes. -/
inductive Reachable (settings : Settings) (colored : Bool) : Shell → Prop
  | new : Reachable settings colored (.new settings colored)
  | turn {read : String → Id (Option String)} {line : List Char} {shown : List String}
    {s t : Shell} (h : Reachable settings colored s)
    (ht : s.turn read line = (shown, some t)) : Reachable settings colored t
  | reload {contents : List Char} {s : Shell} (h : Reachable settings colored s) :
    Reachable settings colored (s.reload contents).2

theorem exists_history_of_after {d : Console} {cs h : List Call}
    (hs : s.console.session = after settings h) (ha : s.console.After cs d) :
    ∃ h', d.session = after settings h' := by
  rw [ha.session_eq, hs, serveAll_after]
  exact ⟨_, rfl⟩

/-- The session of a shell is one that calls lead to. -/
theorem exists_history (h : Reachable settings colored s) :
    ∃ history, s.console.session = after settings history := by
  induction h with
  | new => exact ⟨[], rfl⟩
  | turn _ ht ih =>
    obtain ⟨history, hs⟩ := ih
    exact exists_history_of_after hs (next_of_turn ht ▸ after_next ..)
  | reload _ ih =>
    obtain ⟨history, hs⟩ := ih
    exact exists_history_of_after hs (after_reload ..)

end Shell

end Rhythm
