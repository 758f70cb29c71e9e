import Rhythm.Pattern
import Rhythm.Text.Numeral

/-! Patterns as hexadecimal, octal and decimal numerals. The leftmost step is the least significant
bit; a hexadecimal digit stands for four steps and an octal one for three, in reading order. -/
namespace Rhythm

inductive Radix
  | hex
  | octal
  | decimal
deriving DecidableEq, Repr

namespace Radix

/-- What stands before the digits. -/
def mark : Radix → List Char
  | .hex => ['0', 'x']
  | .octal => ['0', 'o']
  | .decimal => ['d']

def base : Radix → Nat
  | .hex => 16
  | .octal => 8
  | .decimal => 10

/-- How many steps one digit stands for, where digits stand for steps. -/
def group? : Radix → Option Nat
  | .hex => some 4
  | .octal => some 3
  | .decimal => none

end Radix

/-- The lowest `n` bits of a number, least significant first. -/
def lowBits (n value : Nat) : List Bool := (List.range n).map value.testBit

/-- The number of binary digits. -/
def bitLength (value : Nat) : Nat := if value = 0 then 0 else value.log2 + 1

/-- The number with the given bits, least significant first. -/
def ofLowBits : List Bool → Nat
  | [] => 0
  | b :: bs => b.toNat + 2 * ofLowBits bs

def digitValues (r : Radix) : List Char → Except PatternError (List Nat)
  | [] => .ok []
  | c :: cs =>
    match Text.digit? r.base c with
    | none => .error (.invalidDigit c)
    | some v => (digitValues r cs).map (v :: ·)

/-- The steps that digits stand for. -/
def digitBits (r : Radix) (digits : List Char) : Except PatternError (List Bool) := do
  if digits.isEmpty then throw .noDigits
  let values ← digitValues r digits
  match r.group? with
  | some group => return values.flatMap (lowBits group)
  | none =>
    let value := Text.decimalValue digits
    if bitLength value ≤ maxSteps then return lowBits (bitLength value) value
    else throw (.overflow digits)

/-- The length of a decoded pattern when none is asked for: what the digits cover, and at least
eight steps for a decimal numeral. -/
def defaultLength (r : Radix) (bits : List Bool) : Nat :=
  match r.group? with
  | some _ => bits.length
  | none => max bits.length 8

/-- The pattern that digits stand for, cut or filled up with rests to the length asked for. -/
def decode (r : Radix) (digits : List Char) (steps : Option Nat) : Except PatternError Pattern := do
  let bits ← digitBits r digits
  return .tabulate (steps.getD (defaultLength r bits)) fun i => bits[i]?.getD false

namespace Pattern

/-- The steps in groups of `n`, the last one possibly shorter. -/
def groups (p : Pattern) (n : Nat) : List (List Bool) :=
  (List.range ((p.length + n - 1) / n)).map fun k => (p.steps.drop (n * k)).take n

/-- The digits of a pattern, without the mark. -/
def digits (p : Pattern) (r : Radix) : List Char :=
  match r.group? with
  | some group => (p.groups group).map fun g => Text.upperDigit (ofLowBits g)
  | none => Nat.toDigits 10 (ofLowBits p.steps)

def encode (p : Pattern) (r : Radix) : List Char := r.mark ++ p.digits r

end Pattern

end Rhythm
