import Rhythm.Notation.Fault
import Rhythm.Text.Blank
import Rhythm.Text.Letter

/-! Cutting a text into tokens. A token starts at the first character that is not blank and takes all
that belongs to it. -/
namespace Rhythm.Notation

/-- The hexadecimal digits. A numeral takes them in every radix, so that a wrong one is named. -/
def isHexDigit (c : Char) : Bool := (Text.digit? 16 c).isSome

/-- The characters of morse text. A dash is a dash here and no minus. -/
def isMorse (c : Char) : Bool := Text.isAlphabetic c || c == '.' || c == '-'

/-- A token that starts with two characters and goes on with those of a class, which must be there. -/
def scanMarked (place : Nat) (fault : Fault) (token : List Char → Token) (member : Char → Bool)
    (rest : List Char) : Except NotationError (Token × Nat) :=
  let text := rest.takeWhile member
  if text.isEmpty then .error ⟨fault, ⟨place, 2⟩⟩ else .ok (token text, text.length + 1)

/-- The token that starts with `c`, which is not blank, and how many of the characters after `c` it
takes. -/
def scan (place : Nat) (c : Char) (cs : List Char) : Except NotationError (Token × Nat) :=
  let after := cs.headD ' '
  let digits := cs.takeWhile Char.isDigit
  match Mark.ofChar? c with
  | some m => .ok (.mark m, 0)
  | none =>
    if c = '0' ∧ after.toLower = 'x' then
      scanMarked place (.noDigits .hex) (.code .hex) isHexDigit cs.tail
    else if c = '0' ∧ after.toLower = 'o' then
      scanMarked place (.noDigits .octal) (.code .octal) isHexDigit cs.tail
    else if c.toLower = 'd' ∧ after.isDigit then .ok (.code .decimal digits, digits.length)
    else if c.toLower = 'o' ∧ after.isDigit then .ok (.code .octal digits, digits.length)
    else if c.toLower = 'm' ∧ after = ':' then scanMarked place .noMorse .morse isMorse cs.tail
    else if c.isDigit then .ok (.digits (c :: digits), digits.length)
    else if Text.isAlphabetic c then
      let letters := cs.takeWhile Text.isAlphabetic
      .ok (.word (c :: letters), letters.length)
    else .error ⟨.strayCharacter c, ⟨place, 1⟩⟩

/-- The tokens of a text whose first character is at `place`. -/
def tokenize (place : Nat) : List Char → Except NotationError (List Lexeme)
  | [] => .ok []
  | c :: cs =>
    if Text.isBlank c then tokenize (place + 1) cs
    else match scan place c cs with
      | .error e => .error e
      | .ok (token, more) =>
        (tokenize (place + (more + 1)) (cs.drop more)).map (⟨token, place, more + 1⟩ :: ·)
termination_by cs => cs.length

end Rhythm.Notation
