import Rhythm.Notation.Family
import Rhythm.Notation.Token
import Rhythm.Quantization

/-! What can be wrong with a text, and where. -/
namespace Rhythm.Notation

inductive FaultKind
  | unknownGenerator
  | outOfRange
  | onsetsExceedSteps
  | emptyLiteral
  | unterminated
  | unexpectedToken
  | invalidDigit
  | arity
  | combinedTooLong
  | multipleProgressive
deriving DecidableEq, Repr

/-- What could have stood at a place. -/
inductive Wanted
  | endOfPattern
  | closingBrace
  | pattern
  | comma
  | commaOrParen
  | commaOrBracket
  | integer
deriving DecidableEq, Repr

def Wanted.text : Wanted → String
  | .endOfPattern => "end of pattern"
  | .closingBrace => "'\x7d'"
  | .pattern => "a pattern"
  | .comma => "','"
  | .commaOrParen => "',' or ')'"
  | .commaOrBracket => "',' or ']'"
  | .integer => "an integer"

inductive Fault
  | emptyPattern
  | emptyAccent
  | missingPattern
  | noDigits (radix : Radix)
  | noMorse
  | unterminated (opening : Mark)
  | strayCharacter (c : Char)
  | expected (what : Wanted) (found : Option Token)
  | unknownGenerator (name : List Char)
  | unknownPattern (name : List Char)
  | unknownTransformer (name : List Char)
  | integerTooLarge (digits : List Char)
  | negativeCount (n : Int)
  | onsetOutside (position length : Nat)
  | onsetsExceedSteps (family : Family) (onsets steps : Int)
  | arity (family : Family) (got : Nat)
  | bellArity (got : Nat)
  /-- A second progressive suffix; the first one's place comes with it. -/
  | secondProgressive (first : Span)
  | pattern (e : PatternError)
  | quantize (e : QuantizeError)
  | inScene (number : Nat) (fault : Fault)
deriving DecidableEq, Repr

namespace Fault

def kind : Fault → FaultKind
  | .emptyPattern | .emptyAccent | .missingPattern | .noDigits _ | .noMorse => .emptyLiteral
  | .unterminated _ => .unterminated
  | .strayCharacter _ | .expected .. => .unexpectedToken
  | .unknownGenerator _ | .unknownPattern _ | .unknownTransformer _ => .unknownGenerator
  | .integerTooLarge _ | .negativeCount _ | .onsetOutside .. | .quantize _ => .outOfRange
  | .onsetsExceedSteps .. => .onsetsExceedSteps
  | .arity .. | .bellArity _ => .arity
  | .secondProgressive _ => .multipleProgressive
  | .pattern (.invalidDigit _) => .invalidDigit
  | .pattern .noDigits => .emptyLiteral
  | .pattern (.length _) | .pattern (.overflow _) => .outOfRange
  | .pattern (.combinedTooLong _) => .combinedTooLong
  | .inScene _ fault => fault.kind

def quoted (cs : List Char) : String := String.ofList ('\'' :: cs ++ ['\''])

def message : Fault → String
  | .emptyPattern => "empty pattern"
  | .emptyAccent => "empty accent pattern '\x7b\x7d'"
  | .missingPattern => "missing pattern"
  | .noDigits radix => quoted radix.mark ++ " has no digits"
  | .noMorse => "'M:' has no morse text"
  | .unterminated opening => "unterminated " ++ quoted [opening.char]
  | .strayCharacter c => "unexpected character " ++ quoted [c]
  | .expected what found =>
    let shown := (found.map Token.text).getD "end of input".toList
    "expected " ++ what.text ++ ", found " ++ quoted shown
  | .unknownGenerator name => "unknown generator " ++ quoted name
  | .unknownPattern name => "unknown pattern " ++ quoted name
  | .unknownTransformer name =>
    "unknown transformer " ++ quoted name ++ " (expected E, B, W or D)"
  | .integerTooLarge digits => "integer " ++ String.ofList digits ++ " is too large"
  | .negativeCount n => s!"{n} must not be negative"
  | .onsetOutside position length => s!"onset {position} is outside {length} steps"
  | .onsetsExceedSteps family onsets steps =>
    s!"{family.letter}() asks for {onsets} onsets in {steps} steps"
  | .arity family got =>
    let range := if family.maxArgs = 2 then "2" else s!"2 to {family.maxArgs}"
    s!"{family.letter}() takes {range} arguments, got {got}"
  | .bellArity got => s!"R(r,...) takes a step count and an optional seed, got {got} arguments"
  | .secondProgressive first => s!"only one progressive suffix is allowed (first at {first})"
  | .pattern e => e.message
  | .quantize e => e.message
  | .inScene number fault => s!"scene {number}: " ++ fault.message

/-- The same fault in a text that is `n` characters further along. -/
def shift (n : Nat) : Fault → Fault
  | .secondProgressive first => .secondProgressive (first.shift n)
  | .inScene number fault => .inScene number (fault.shift n)
  | fault => fault

end Fault

/-- A fault at a place. -/
structure NotationError where
  fault : Fault
  span : Span
deriving DecidableEq, Repr

namespace NotationError

def kind (e : NotationError) : FaultKind := e.fault.kind

def message (e : NotationError) : String := s!"Error at {e.span}: " ++ e.fault.message

def shift (n : Nat) (e : NotationError) : NotationError := ⟨e.fault.shift n, e.span.shift n⟩

def inScene (number : Nat) (e : NotationError) : NotationError := ⟨.inScene number e.fault, e.span⟩

end NotationError

end Rhythm.Notation
