import Rhythm.Console.CommandLine

/-! The program: files, the terminal and the exit code around a run. -/
namespace Rhythm.Program

open Console

def readFile (path : String) : IO (Option String) := do
  try return some (← IO.FS.readFile path)
  catch _ => return none

def printLines (lines : List String) : IO Unit := do
  for l in lines do IO.println l
  (← IO.getStdout).flush

/-- Reads lines until the shell or the input ends. -/
partial def converse (input : IO.FS.Stream) (s : Shell) : IO Unit := do
  let line ← input.getLine
  if line.isEmpty then printLines [Shell.farewell s.console.colored]
  else
    let (shown, next) ← s.turn readFile line.toList
    printLines shown
    match next with
    | some s => converse input s
    | none => return

/-- Prints what a finished run says. -/
def finish (o : Outcome) : IO UInt32 := do
  printLines o.lines
  match o.status with
  | .failed message => IO.eprintln s!"Error: {message}"
  | .misused => IO.eprintln "Error: wrong usage"
  | .success => pure ()
  return .ofNat o.status.code

end Rhythm.Program

open Rhythm Console Program in
def main (args : List String) : IO UInt32 := do
  let colored ← (← IO.getStdout).isTty
  match ← start readFile colored args with
  | .over o => finish o
  | .shell s =>
    printLines (Shell.banner colored)
    converse (← IO.getStdin) s
    return 0
