import Rhythm.Notation.Span
import Rhythm.Pattern.Codec

/-! The tokens of the notation. -/
namespace Rhythm.Notation

/-- Tokens of one character. -/
inductive Mark
  | leftParen
  | rightParen
  | leftBrace
  | rightBrace
  | leftBracket
  | rightBracket
  | comma
  | colon
  | plus
  | minus
  | star
  | greater
  | semicolon
  | tilde
  | at
  | pipe
  | percent
deriving DecidableEq, Repr

namespace Mark

def char : Mark → Char
  | .leftParen => '('
  | .rightParen => ')'
  | .leftBrace => '{'
  | .rightBrace => '}'
  | .leftBracket => '['
  | .rightBracket => ']'
  | .comma => ','
  | .colon => ':'
  | .plus => '+'
  | .minus => '-'
  | .star => '*'
  | .greater => '>'
  | .semicolon => ';'
  | .tilde => '~'
  | .at => '@'
  | .pipe => '|'
  | .percent => '%'

def ofChar? : Char → Option Mark
  | '(' => some .leftParen
  | ')' => some .rightParen
  | '{' => some .leftBrace
  | '}' => some .rightBrace
  | '[' => some .leftBracket
  | ']' => some .rightBracket
  | ',' => some .comma
  | ':' => some .colon
  | '+' => some .plus
  | '-' => some .minus
  | '*' => some .star
  | '>' => some .greater
  | ';' => some .semicolon
  | '~' => some .tilde
  | '@' => some .at
  | '|' => some .pipe
  | '%' => some .percent
  | _ => none

theorem ofChar?_char (m : Mark) : ofChar? m.char = some m := by cases m <;> rfl

end Mark

inductive Token
  /-- Letters: a generator, a preset, a word operator. -/
  | word (name : List Char)
  | digits (ds : List Char)
  /-- The digits of a numeral in a radix, without what marks the radix. -/
  | code (radix : Radix) (ds : List Char)
  /-- Letters, dots and dashes after the morse sign. -/
  | morse (text : List Char)
  | mark (m : Mark)
deriving DecidableEq, Repr

/-- The usual spelling of a token. -/
def Token.text : Token → List Char
  | .word name => name
  | .digits ds => ds
  | .code radix ds => radix.mark ++ ds
  | .morse text => 'M' :: ':' :: text
  | .mark m => [m.char]

/-- A token and its place. -/
structure Lexeme where
  token : Token
  span : Span
deriving DecidableEq, Repr

end Rhythm.Notation
