/-! Numbers as text: decimal numerals, grouped digits, and rounding to a fixed number of places. -/
namespace Rhythm.Text

/-- The largest number that fits in 64 bits. -/
def maxWord : Nat := 0xFFFFFFFFFFFFFFFF

/-- The number a run of decimal digits stands for. -/
def decimalValue (digits : List Char) : Nat := Nat.ofDigitChars 10 digits 0

/-- An integer in decimal, with a minus in front of a negative one. -/
def decimal (n : Int) : List Char :=
  if n < 0 then '-' :: Nat.toDigits 10 n.natAbs else Nat.toDigits 10 n.natAbs

/-- The value of a digit of some base up to 16, in either case. -/
def digit? (base : Nat) (c : Char) : Option Nat :=
  let v :=
    if c.isDigit then c.toNat - 48
    else if 'a' ≤ c ∧ c ≤ 'f' then c.toNat - 87
    else if 'A' ≤ c ∧ c ≤ 'F' then c.toNat - 55
    else 16
  if v < base then some v else none

/-- The digit of a value below 16, in upper case. -/
def upperDigit (v : Nat) : Char := (Nat.digitChar v).toUpper

/-- A 64-bit count as a user types it: digits, with at most a plus in front. -/
def count? (cs : List Char) : Option Nat :=
  let digits := match cs with
    | '+' :: ds => ds
    | ds => ds
  let n := decimalValue digits
  if !digits.isEmpty && digits.all Char.isDigit && n ≤ maxWord then some n else none

/-- The text filled up with blanks on its left to a width. -/
def padLeft (width : Nat) (cs : List Char) : List Char :=
  List.replicate (width - cs.length) ' ' ++ cs

/-- The nearest integer to a quotient; of two equally near ones the even one. -/
def roundHalfEven (num den : Nat) : Nat :=
  let q := num / den
  let r := 2 * (num % den)
  if r < den ∨ (r = den ∧ q % 2 = 0) then q else q + 1

/-- The magnitude of a finite double as a quotient of integers. -/
def magnitude (x : Float) : Nat × Nat :=
  let bits := x.toBits.toNat
  let unit := 0x10000000000000
  let e := bits / unit % 2048
  let m := bits % unit
  if e = 0 then (m, 1 <<< 1074)
  else if 1075 ≤ e then ((unit + m) <<< (e - 1075), 1)
  else (unit + m, 1 <<< (1075 - e))

/-- Whether the sign bit of a double is set. -/
def isNegative (x : Float) : Bool := 0x8000000000000000 ≤ x.toBits.toNat

/-- A finite double with a fixed number of decimal places, without its sign. The exact value is
rounded, a tie to the even neighbour. -/
def fixedPlaces (places : Nat) (x : Float) : List Char :=
  let (num, den) := magnitude x
  let scale := Nat.pow 10 places
  let scaled := roundHalfEven (num * scale) den
  let whole := Nat.toDigits 10 (scaled / scale)
  if places = 0 then whole
  else
    let part := Nat.toDigits 10 (scaled % scale)
    whole ++ '.' :: List.replicate (places - part.length) '0' ++ part

/-- As `fixedPlaces`, with the sign always written. -/
def signedPlaces (places : Nat) (x : Float) : List Char :=
  (if isNegative x then '-' else '+') :: fixedPlaces places x

end Rhythm.Text
