import Rhythm.Settings.Datum

/-! Values in TOML without quotes and brackets: truth values, numbers, dates and times. -/
namespace Rhythm.Toml

open Text

/-- Digits of a base with single underscores between them. -/
def grouped? (base : Nat) (cs : List Char) : Option (List Nat) :=
  let runs := cs.splitOn '_'
  if runs.any (·.isEmpty) then none else (runs.flatten).mapM (digit? base)

def ofDigits (base : Nat) (ds : List Nat) : Nat := ds.foldl (fun n d => base * n + d) 0

/-- The digits of a decimal integer without superfluous zeros in front. -/
def wholePart? (cs : List Char) : Option (List Nat) :=
  if cs.head? = some '0' ∧ 1 < cs.length then none else grouped? 10 cs

/-- An integer that fits in 128 bits, with or without a sign. -/
def integer? (cs : List Char) : Option Int := do
  let n : Int ← match cs with
    | '0' :: 'x' :: cs => (grouped? 16 cs).map fun ds => (ofDigits 16 ds : Int)
    | '0' :: 'o' :: cs => (grouped? 8 cs).map fun ds => (ofDigits 8 ds : Int)
    | '0' :: 'b' :: cs => (grouped? 2 cs).map fun ds => (ofDigits 2 ds : Int)
    | '+' :: cs => (wholePart? cs).map fun ds => (ofDigits 10 ds : Int)
    | '-' :: cs => (wholePart? cs).map fun ds => -(ofDigits 10 ds : Int)
    | cs => (wholePart? cs).map fun ds => (ofDigits 10 ds : Int)
  if -1 <<< 127 ≤ n ∧ n < 1 <<< 128 then return n else none

/-- The least number that no finite double is nearest to. -/
def overflow : Nat := (1 <<< 1024) - (1 <<< 970)

/-- Whether a finite double is nearest to m · 10^e. With k digits, m is from 10^(k - 1) up to and
without 10^k, so only numbers of 309 places have to be looked at. -/
def isFinite (m : Nat) (e : Int) : Bool :=
  let places := (Nat.toDigits 10 m).length + e
  if m = 0 ∨ places < 309 then true
  else if 309 < places then false
  else m * Nat.pow 10 e.toNat < overflow * Nat.pow 10 (-e).toNat

/-- The sign and the text after it. -/
def signed : List Char → Bool × List Char
  | '-' :: cs => (true, cs)
  | '+' :: cs => (false, cs)
  | cs => (false, cs)

def exponent? : List Char → Option Int
  | [] => some 0
  | _ :: cs =>
    let (negative, cs) := signed cs
    (grouped? 10 cs).map fun ds => if negative then -(ofDigits 10 ds : Int) else ofDigits 10 ds

def fraction? : List Char → Option (List Nat)
  | [] => some []
  | _ :: cs => grouped? 10 cs

/-- Whether a word is a number with a fraction or an exponent. Only the word itself may name
infinity. -/
def isFloat (cs : List Char) : Bool :=
  let cs := (signed cs).2
  let mantissa := cs.takeWhile fun c => c ≠ 'e' ∧ c ≠ 'E'
  let exponent := cs.drop mantissa.length
  let whole := mantissa.takeWhile (· ≠ '.')
  let fraction := mantissa.drop whole.length
  if cs = "inf".toList ∨ cs = "nan".toList then true
  else if (fraction ++ exponent).isEmpty then false
  else
    match wholePart? whole, fraction? fraction, exponent? exponent with
    | some ws, some fs, some e => isFinite (ofDigits 10 (ws ++ fs)) (e - fs.length)
    | _, _, _ => false

/-- A number of some digits that no other digit follows. -/
def number? (digits : Nat) (cs : List Char) : Option (Nat × List Char) :=
  let ds := cs.takeWhile Char.isDigit
  if ds.length = digits then some (decimalValue ds, cs.drop digits) else none

/-- The number after a mark. -/
def numberAfter? (mark : Char) (digits : Nat) : List Char → Option (Nat × List Char)
  | c :: cs => if c = mark then number? digits cs else none
  | [] => none

def isLeap (year : Nat) : Bool := year % 4 == 0 && (year % 100 != 0 || year % 400 == 0)

def daysIn (year month : Nat) : Nat :=
  if month = 2 then (if isLeap year then 29 else 28)
  else if month ∈ [4, 6, 9, 11] then 30
  else 31

/-- The text after a day of the calendar. -/
def afterDate? (cs : List Char) : Option (List Char) := do
  let (year, cs) ← number? 4 cs
  let (month, cs) ← numberAfter? '-' 2 cs
  let (day, cs) ← numberAfter? '-' 2 cs
  if 1 ≤ month ∧ month ≤ 12 ∧ 1 ≤ day ∧ day ≤ daysIn year month then return cs else none

/-- The text after a second and its fraction. -/
def afterSecond? (cs : List Char) : Option (List Char) := do
  let (second, cs) ← numberAfter? ':' 2 cs
  if 60 < second then none
  match cs with
  | '.' :: cs =>
    let rest := cs.dropWhile Char.isDigit
    if rest.length < cs.length then return rest else none
  | cs => return cs

/-- The text after a time of day. It may have no second. -/
def afterTime? (cs : List Char) : Option (List Char) := do
  let (hour, cs) ← number? 2 cs
  let (minute, cs) ← numberAfter? ':' 2 cs
  if 23 < hour ∨ 59 < minute then none
  match cs with
  | ':' :: _ => afterSecond? cs
  | cs => return cs

/-- Whether this is a distance from universal time, or none. -/
def isOffset : List Char → Bool
  | [] | ['Z'] | ['z'] => true
  | '+' :: cs | '-' :: cs =>
    match number? 2 cs with
    | none => false
    | some (hours, cs) =>
      match numberAfter? ':' 2 cs with
      | some (minutes, []) => hours ≤ 23 && minutes ≤ 59
      | _ => false
  | _ => false

def isDate (cs : List Char) : Bool := afterDate? cs == some []

/-- Whether this is a date, a time of day, or both. -/
def isMoment (cs : List Char) : Bool :=
  match afterDate? cs with
  | none => afterTime? cs == some []
  | some [] => true
  | some (c :: cs) => (c == 'T' || c == 't' || c == ' ') && (afterTime? cs).any isOffset

def plain? (cs : List Char) : Option Datum :=
  if cs = "true".toList ∨ cs = "false".toList then some .other
  else match integer? cs with
    | some n => some (if 0 ≤ n ∧ n ≤ maxWord then .number n.toNat else .other)
    | none => if isFloat cs || isMoment cs then some .other else none

def endsPlain (c : Char) : Bool := c ∈ [' ', '\t', '\r', '\n', ',', ']', '}', '#']

def word (cs : List Char) : List Char := cs.takeWhile (!endsPlain ·)

/-- The word at the start. A date takes the time with it that one blank separates from it. -/
def plainWord (cs : List Char) : List Char :=
  let w := word cs
  match cs.drop w.length with
  | ' ' :: c :: cs => if isDate w ∧ c.isDigit then w ++ ' ' :: word (c :: cs) else w
  | _ => w

end Rhythm.Toml
