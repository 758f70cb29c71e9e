import Rhythm.Console.Command
import Rhythm.Console.TypedLine

/-! The shell: a console that reads lines and files and prints. -/
namespace Rhythm

open Console Notation Text

structure Shell where
  console : Console
  /-- The files watched, each once. -/
  watched : List String

namespace Shell

variable {m : Type → Type} [Monad m]

def new (settings : Settings) (colored : Bool) : Shell := ⟨.new settings colored, []⟩

def banner (colored : Bool) : List String :=
  let sample := paint colored (.colour .cyan)
  let leave := paint colored (.colour .brightRed)
  [paint colored (.strong .brightCyan) "Serpe Rhythm Notation",
    "Type patterns like: " ++ ", ".intercalate
      [sample "E(3,8)", sample "B(5,13)>8", sample "\x7b101\x7dE(5,8)|tresillo"],
    "Type '" ++ paint colored (.colour .brightGreen) "help" ++ "' for more information, '" ++
      leave "quit" ++ "' or " ++ leave "Ctrl+C" ++ " to exit.",
    ""]

def farewell (colored : Bool) : String := paint colored (.colour .brightCyan) "Goodbye!"

/-- The texts in a file, one a line. Blank lines and those that start with `#` hold none. -/
def fileTexts (contents : List Char) : List (List Char) :=
  (trimmedLines contents).filter fun l => !l.isEmpty && l.head? != some '#'

/-- Reads texts in turn. Tells a line about each of them, and the last that could be read. -/
def reloadTexts (colored : Bool) (s : Session) :
    List (List Char) → List String × Option String × Session
  | [] => ([], none, s)
  | t :: ts =>
    let text := String.ofList t
    let (result, s) := s.parse text
    let (lines, last, s) := reloadTexts colored s ts
    match result with
    | .ok r =>
      let line := paint colored (.colour .cyan) text ++ s!" {r.evaluation.pattern}"
      (line :: lines, last.or (some text), s)
    | .error e =>
      let line := paint colored (.colour .red) "Error:" ++ s!" {text}: {e.message}"
      (line :: lines, last, s)

/-- Reads all texts of a file and takes the last good one in hand. -/
def reload (contents : List Char) (s : Shell) : List String × Shell :=
  let c := s.console
  let (lines, last, session) := reloadTexts c.colored c.session (fileTexts contents)
  (lines, { s with console := { c with session, current := last.or c.current } })

/-- The names along a path. -/
def pathNames (path : String) : List (List Char) :=
  let names := path.toList.splitOn '/'
  names.take 1 ++ (names.drop 1).filter fun n => !n.isEmpty && n != ['.']

/-- Adds a file to those watched, unless it is there already under some spelling. -/
def addWatched (path : String) (s : Shell) : Shell :=
  if s.watched.any fun p => pathNames p == pathNames path then s
  else { s with watched := s.watched ++ [path] }

/-- Watches a file from now on and reads it at once. -/
def watch (path : String) (contents : Option String) (s : Shell) : List String × Shell :=
  let colored := s.console.colored
  match contents with
  | none => ([paint colored (.colour .red) "Error:" ++ s!" Failed to watch {path}"], s)
  | some contents =>
    let s := s.addWatched path
    let (lines, t) := s.reload contents.toList
    let name := paint colored (.colour .brightGreen) path
    (s!"Watching {name} for changes ({s.watched.length} file(s) watched)" :: lines, t)

def errorLine (colored : Bool) (text : String) : String :=
  paint colored (.strong .brightRed) "Error:" ++ " " ++ paint colored (.colour .red) text

/-- What a line brings to the screen, and the shell after it unless that was the end. -/
def turn (read : String → m (Option String)) (line : List Char) (s : Shell) :
    m (List String × Option Shell) := do
  let line := trim (TypedLine.ofText line).chars
  if line.isEmpty then return ([], some s)
  let (reply, console) := s.console.answer line
  let s := { s with console }
  match reply with
  | .message text => return ([text], some s)
  | .failure text => return ([errorLine console.colored text], some s)
  | .watch path =>
    let (lines, s) := s.watch path (← read path)
    return (lines, some s)
  | .quit => return ([farewell console.colored], none)

/-- What lines bring to the screen. After the last one the shell takes its leave. -/
def run (read : String → m (Option String)) (s : Shell) : List (List Char) → m (List String)
  | [] => return [farewell s.console.colored]
  | l :: ls => do
    match ← s.turn read l with
    | (shown, none) => return shown
    | (shown, some s) => return shown ++ (← run read s ls)

end Shell

end Rhythm
