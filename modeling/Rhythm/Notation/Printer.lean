import Rhythm.Notation.Expr
import Rhythm.Text.Numeral

/-! Expressions as text. -/
namespace Rhythm.Notation

open Text

/-- The pieces with a separator between them. -/
def joined (separator : Char) : List (List Char) → List Char
  | [] => []
  | [p] => p
  | p :: ps => p ++ separator :: joined separator ps

def Suffix.text : Suffix → List Char
  | .offset n => '+' :: decimal n
  | .lengthen block => '*' :: decimal block
  | .transform target family => (family.map Family.letter).toList ++ '>' :: decimal target

namespace Expr

mutual

def text : Expr → List Char
  | .literal p => p.bits
  | .generator family args _ =>
    family.letter :: '(' :: joined ',' (args.map decimal) ++ [')']
  | .bell steps seed _ =>
    let seed := (seed.map fun s => ',' :: decimal s.toNat).getD []
    'R' :: '(' :: 'r' :: ',' :: decimal steps ++ seed ++ [')']
  | .accented accent body => '{' :: accent.text ++ '}' :: body.text
  | .quantized body steps clockwise _ =>
    body.text ++ ';' :: (if clockwise then [] else ['-']) ++ decimal steps
  | .progressive suffix body => body.text ++ suffix.text
  | .combination how left right _ =>
    left.text ++ (match how with | .add => '+' | .subtract => '-') :: right.text
  | .chain parts _ => joined ' ' (texts parts)
  | .invert body => '~' :: body.text
  | .reverse body => 'r' :: 'e' :: 'v' :: ' ' :: body.text
  | .rotate body offset => body.text ++ '@' :: decimal offset
  | .scenes parts => joined '|' (texts parts)

def texts : List Expr → List (List Char)
  | [] => []
  | e :: es => e.text :: texts es

end

end Expr

end Rhythm.Notation
