import Rhythm.Settings.Datum

/-! Data in JSON, as which settings are exchanged with the web. -/
namespace Rhythm.Json

open Text

def skipBlanks (cs : List Char) : List Char :=
  cs.dropWhile fun c => c = ' ' ∨ c = '\n' ∨ c = '\t' ∨ c = '\r'

/-- The value of four hexadecimal digits. -/
def hex4? : List Char → Option (Nat × List Char)
  | a :: b :: c :: d :: cs => do
    let n ← [a, b, c, d].foldlM (fun n c => do return 16 * n + (← digit? 16 c)) 0
    return (n, cs)
  | _ => none

/-- The rest of a string as code points, up to and with its closing quote. An escape gives one, so
a character outside the basic plane may come in two halves. -/
def codePoints? : Nat → List Char → Option (List Nat × List Char)
  | 0, _ | _, [] => none
  | _ + 1, '"' :: cs => some ([], cs)
  | fuel + 1, '\\' :: c :: cs => do
    let (n, cs) ← match c with
      | '"' | '\\' | '/' => some (c.toNat, cs)
      | 'b' => some (0x08, cs)
      | 'f' => some (0x0C, cs)
      | 'n' => some (0x0A, cs)
      | 'r' => some (0x0D, cs)
      | 't' => some (0x09, cs)
      | 'u' => hex4? cs
      | _ => none
    let (s, cs) ← codePoints? fuel cs
    return (n :: s, cs)
  | fuel + 1, c :: cs => do
    if c.toNat < 0x20 ∨ c = '\\' then none
    let (s, cs) ← codePoints? fuel cs
    return (c.toNat :: s, cs)

def isHighHalf (n : Nat) : Bool := 0xD800 ≤ n && n < 0xDC00

def isLowHalf (n : Nat) : Bool := 0xDC00 ≤ n && n < 0xE000

/-- The characters of code points in which each half has its other half. -/
def chars? : List Nat → Option (List Char)
  | [] => some []
  | [n] => if isHighHalf n || isLowHalf n then none else some [.ofNat n]
  | n :: m :: ns =>
    if isHighHalf n && isLowHalf m then
      (chars? ns).map (.ofNat (0x10000 + (n - 0xD800) * 0x400 + (m - 0xDC00)) :: ·)
    else if isHighHalf n || isLowHalf n then none
    else (chars? (m :: ns)).map (.ofNat n :: ·)

def ofString (s : List Nat) : Datum :=
  match chars? s with
  | some cs => .text cs
  | none => .other

/-- A table with a field whose name has no characters is nothing that a setting can be. -/
def ofFields (fields : List (List Nat × Datum)) : Datum :=
  match fields.mapM fun f => (chars? f.1).map fun name => (name, f.2) with
  | some fields => .table fields
  | none => .other

/-- Digits, at least one. -/
def digits? (cs : List Char) : Option (List Char × List Char) :=
  let ds := cs.takeWhile Char.isDigit
  if ds.isEmpty then none else some (ds, cs.drop ds.length)

/-- A number. Only an integer without sign, fraction and exponent can be a setting. -/
def number? (cs : List Char) : Option (Datum × List Char) := do
  let (negative, cs) := match cs with
    | '-' :: cs => (true, cs)
    | cs => (false, cs)
  let (ds, cs) ← digits? cs
  if ds.head? = some '0' ∧ 1 < ds.length then none
  let (fraction, cs) ← match cs with
    | '.' :: cs => (digits? cs).map fun r => (true, r.2)
    | cs => some (false, cs)
  let (exponent, cs) ← match cs with
    | 'e' :: cs | 'E' :: cs =>
      let cs := match cs with
        | '+' :: cs | '-' :: cs => cs
        | cs => cs
      (digits? cs).map fun r => (true, r.2)
    | cs => some (false, cs)
  let n := decimalValue ds
  return (if negative || fraction || exponent || maxWord < n then .other else .number n, cs)

/-- The text after a word, if it starts with it. -/
def after? (word : List Char) (cs : List Char) : Option (List Char) :=
  if word.isPrefixOf cs then some (cs.drop word.length) else none

mutual

def value? : Nat → List Char → Option (Datum × List Char)
  | 0, _ => none
  | fuel + 1, cs =>
    match skipBlanks cs with
    | '"' :: cs => (codePoints? (cs.length + 1) cs).map fun r => (ofString r.1, r.2)
    | '[' :: cs =>
      match skipBlanks cs with
      | ']' :: cs => some (.list [], cs)
      | cs => (items? fuel cs).map fun r => (.list r.1, r.2)
    | '{' :: cs =>
      match skipBlanks cs with
      | '}' :: cs => some (.table [], cs)
      | cs => (fields? fuel cs).map fun r => (ofFields r.1, r.2)
    | 'n' :: cs => (after? "ull".toList cs).map fun cs => (.null, cs)
    | 't' :: cs => (after? "rue".toList cs).map fun cs => (.other, cs)
    | 'f' :: cs => (after? "alse".toList cs).map fun cs => (.other, cs)
    | cs => number? cs

def items? : Nat → List Char → Option (List Datum × List Char)
  | 0, _ => none
  | fuel + 1, cs =>
    match value? fuel cs with
    | none => none
    | some (d, cs) =>
      match skipBlanks cs with
      | ',' :: cs => (items? fuel cs).map fun r => (d :: r.1, r.2)
      | ']' :: cs => some ([d], cs)
      | _ => none

def fields? : Nat → List Char → Option (List (List Nat × Datum) × List Char)
  | 0, _ => none
  | fuel + 1, cs =>
    match skipBlanks cs with
    | '"' :: cs =>
      match codePoints? (cs.length + 1) cs with
      | none => none
      | some (name, cs) =>
        match skipBlanks cs with
        | ':' :: cs =>
          match value? fuel cs with
          | none => none
          | some (d, cs) =>
            match skipBlanks cs with
            | ',' :: cs => (fields? fuel cs).map fun r => ((name, d) :: r.1, r.2)
            | '}' :: cs => some ([(name, d)], cs)
            | _ => none
        | _ => none
    | _ => none

end

/-- A text that is one value. Every call takes a character, so twice the length is fuel enough. -/
def read? (cs : List Char) : Option Datum :=
  match value? (2 * cs.length + 1) cs with
  | some (d, cs) => if (skipBlanks cs).isEmpty then some d else none
  | none => none

end Rhythm.Json
