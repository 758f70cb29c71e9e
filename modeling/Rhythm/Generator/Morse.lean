import Rhythm.Pattern

/-! Morse rhythms: a dot is an onset, a dash an onset and a rest. -/
namespace Rhythm

def morseLetter : Char → List Char
  | 'a' => ['.', '-']
  | 'b' => ['-', '.', '.', '.']
  | 'c' => ['-', '.', '-', '.']
  | 'd' => ['-', '.', '.']
  | 'e' => ['.']
  | 'f' => ['.', '.', '-', '.']
  | 'g' => ['-', '-', '.']
  | 'h' => ['.', '.', '.', '.']
  | 'i' => ['.', '.']
  | 'j' => ['.', '-', '-', '-']
  | 'k' => ['-', '.', '-']
  | 'l' => ['.', '-', '.', '.']
  | 'm' => ['-', '-']
  | 'n' => ['-', '.']
  | 'o' => ['-', '-', '-']
  | 'p' => ['.', '-', '-', '.']
  | 'q' => ['-', '-', '.', '-']
  | 'r' => ['.', '-', '.']
  | 's' => ['.', '.', '.']
  | 't' => ['-']
  | 'u' => ['.', '.', '-']
  | 'v' => ['.', '.', '.', '-']
  | 'w' => ['.', '-', '-']
  | 'x' => ['-', '.', '.', '-']
  | 'y' => ['-', '.', '-', '-']
  | 'z' => ['-', '-', '.', '.']
  | _ => []

/-- The ASCII character in the lower-case form of a character. Outside ASCII only the dotted capital
I and the kelvin sign have one; every other character stays as it is. -/
def plainLower (c : Char) : Char :=
  if c = '\u0130' then 'i' else if c = '\u212A' then 'k' else c.toLower

/-- Dots and dashes of a text, without gaps. Dots and dashes stand for themselves; what is neither
these nor a letter is dropped. -/
def morseCode (text : List Char) : List Char :=
  text.flatMap fun c => if c = '.' ∨ c = '-' then [c] else morseLetter (plainLower c)

def morse (text : List Char) : Except PatternError Pattern :=
  let steps := (morseCode text).flatMap fun c => if c = '.' then [true] else [true, false]
  if steps.isEmpty then .error .noDigits else Pattern.ofSteps steps

end Rhythm
