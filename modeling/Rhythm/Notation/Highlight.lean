import Rhythm.Notation.Lexer

/-! Tokens by class, for colouring a text in an editor. -/
namespace Rhythm.Notation

/-- The name of a token's class. -/
def Token.scope : Token → String
  | .word [_] => "function.generator"
  | .word name =>
    if ["rev", "inv", "comp"].any fun w => Text.sameWord name w.toList then "keyword.operator"
    else "constant.preset"
  | .digits _ => "constant.numeric"
  | .code .. => "constant.codec"
  | .morse _ => "constant.morse"
  | .mark m =>
    match m with
    | .plus | .minus | .tilde => "operator"
    | .star | .greater | .semicolon | .at | .percent => "operator.progressive"
    | .pipe => "keyword.scene"
    | _ => "punctuation"

structure Highlight where
  span : Span
  scope : String
  text : List Char
deriving DecidableEq, Repr

/-- The tokens of a text in order. A text with a stray character has none. -/
def highlights (text : List Char) : List Highlight :=
  match tokenize 0 text with
  | .ok tokens => tokens.map fun t => ⟨t.span, t.token.scope, t.token.text⟩
  | .error _ => []

end Rhythm.Notation
