import Rhythm.Console.Style

/-! The help text. -/
namespace Rhythm.Console

/-- A sample in a style, and what it means, a few blanks apart. -/
def helpEntry (colored : Bool) (style : Style) (entry : String × Nat × String) : String :=
  "  " ++ paint colored style entry.1 ++ String.ofList (List.replicate entry.2.1 ' ') ++ "- " ++
    entry.2.2

/-- A heading and its entries. -/
def helpSection (colored : Bool) (style : Style) (heading : String)
    (entries : List (String × Nat × String)) : List String :=
  paint colored (.colour .green) heading :: entries.map (helpEntry colored style)

def patternHelp : List (String × Nat × String) := [
  ("10010010", 8, "Binary literal (1 = onset)"),
  ("101:8", 10, "Binary literal padded to 8 steps"),
  ("0x94:8  o44  d73  73", 2, "Hex, octal, decimal codecs"),
  ("M:SOS", 9, "Morse (. = onset, - = onset + rest)"),
  ("[0,3,6]:8", 6, "Onset positions"),
  ("tresillo  cinquillo  tri..oct", 2, "Presets")]

def generatorHelp : List (String × Nat × String) := [
  ("E(3,8)", 10, "Euclidean (E(3,8,1) rotates)"),
  ("B(3,8)", 10, "Barlow indispensability"),
  ("W(3,8)", 10, "Wolrab (anti-metric)"),
  ("D(3,8)", 10, "Dilcue (anti-Euclidean)"),
  ("P(5,0,8)", 6, "Polygon: sides, offset, steps"),
  ("R(3,8,1)", 7, "Random: onsets, steps, seed"),
  ("R(r,8)", 9, "Random with a bell-curve onset count")]

def operatorHelp : List (String × Nat × String) := [
  ("E(3,8)+E(2,8)  a-b", 3, "Combine (OR) / subtract"),
  ("~E(3,8)", 9, "Invert (also inv, comp)"),
  ("rev E(3,8)", 5, "Reverse"),
  ("1010 E(3,8)", 2, "String patterns together"),
  ("E(3,8)@2", 8, "Rotate later by 2"),
  ("E(5,17);12", 3, "Quantize to 12 steps (-12 counter-clockwise)"),
  ("\x7b101\x7dE(5,8)", 5, "Accent the onsets")]

def progressiveHelp : List (String × Nat × String) := [
  ("E(3,8)+1", 8, "Rotate one step further each tick (or %1)"),
  ("E(3,8)*4", 8, "Grow by a random 4-step block"),
  ("E(1,8)>8", 8, "Move one onset toward 8"),
  ("E(1,8)B>5", 7, "Same, evolving by Barlow flips"),
  ("E(3,8)|B(5,13)", 2, "Scenes, one per tick")]

def commandHelp : List (String × Nat × String) := [
  ("tick [text]", 2, "Advance the current (or given) notation"),
  ("reset [text]", 1, "Back to the base pattern"),
  ("reset all", 7, "Reset every stored notation"),
  ("forget [text]", 1, "Drop stored state"),
  ("state [text]", 1, "Show evolution state"),
  ("quantize <bits> <steps> [ccw]", 1, "Re-quantize a binary pattern"),
  ("accents [text]", 1, "Show the accent cycle"),
  ("watch <file>", 1, "Re-submit every line on change"),
  ("seed, capacity", 2, "Show engine settings"),
  ("quit, exit", 4, "Leave")]

def help (colored : Bool) : List String :=
  let samples := helpSection colored (.colour .cyan)
  [paint colored .bold "Serpe Notation Help", paint colored .bold "===================", ""] ++
    samples "Patterns:" patternHelp ++ [""] ++
    samples "Generators:" generatorHelp ++ [""] ++
    samples "Operators:" operatorHelp ++ [""] ++
    samples "Progressive (advance with tick):" progressiveHelp ++ [""] ++
    helpSection colored (.colour .yellow) "Commands:" commandHelp

end Rhythm.Console
