/-! Text in colour on a terminal. -/
namespace Rhythm.Console

inductive Colour
  | red
  | green
  | yellow
  | cyan
  | brightBlack
  | brightRed
  | brightGreen
  | brightYellow
  | brightCyan
  | brightWhite
deriving DecidableEq, Repr

def Colour.code : Colour → Nat
  | .red => 31
  | .green => 32
  | .yellow => 33
  | .cyan => 36
  | .brightBlack => 90
  | .brightRed => 91
  | .brightGreen => 92
  | .brightYellow => 93
  | .brightCyan => 96
  | .brightWhite => 97

inductive Style
  | bold
  | colour (c : Colour)
  /-- A colour in bold. -/
  | strong (c : Colour)
deriving DecidableEq, Repr

def Style.codes : Style → List Nat
  | .bold => [1]
  | .colour c => [c.code]
  | .strong c => [1, c.code]

/-- The escape sequence that turns a style on. -/
def Style.opening (s : Style) : String := "\x1b[" ++ ";".intercalate (s.codes.map toString) ++ "m"

/-- The escape sequence that turns all styles off. -/
def closing : String := "\x1b[0m"

/-- The text in a style, if styles are shown. Where the text turns styles off itself, the style is
turned on again. -/
def paint (colored : Bool) (style : Style) (text : String) : String :=
  if colored then style.opening ++ text.replace closing (closing ++ style.opening) ++ closing
  else text

end Rhythm.Console
