import Rhythm.Text.Numeral

/-! What stands between values in TOML, its strings and its keys. -/
namespace Rhythm.Toml

open Text

/-- The characters of comments and of strings on one line. -/
def isPrinting (c : Char) : Bool := c == '\t' || (0x20 ≤ c.toNat && c.toNat != 0x7f)

def skipBlanks (cs : List Char) : List Char := cs.dropWhile fun c => c = ' ' ∨ c = '\t'

/-- The text after a comment, if one starts here. -/
def skipComment : List Char → List Char
  | '#' :: cs => cs.dropWhile isPrinting
  | cs => cs

def afterLineEnd? : List Char → Option (List Char)
  | '\n' :: cs | '\r' :: '\n' :: cs => some cs
  | _ => none

/-- The text after blanks and line ends. -/
def skipGaps : List Char → List Char
  | '\n' :: cs | '\r' :: '\n' :: cs | ' ' :: cs | '\t' :: cs => skipGaps cs
  | cs => cs

/-- The text after blanks, comments and line ends; it may begin inside a comment. -/
def skipLines (comment : Bool) : List Char → List Char
  | [] => []
  | '\n' :: cs => skipLines false cs
  | '\r' :: '\n' :: cs => skipLines false cs
  | c :: cs =>
    if comment ∧ isPrinting c then skipLines true cs
    else if !comment ∧ c = '#' then skipLines true cs
    else if !comment ∧ (c = ' ' ∨ c = '\t') then skipLines false cs
    else c :: cs

/-- The text after the end of a line. -/
def lineEnd? (cs : List Char) : Option (List Char) :=
  match skipComment (skipBlanks cs) with
  | [] => some []
  | cs => afterLineEnd? cs

/-- The character that some hexadecimal digits name. -/
def codePoint? (digits : Nat) (cs : List Char) : Option (Char × List Char) := do
  if cs.length < digits then none
  let n ← (cs.take digits).foldlM (fun n c => do return 16 * n + (← digit? 16 c)) 0
  if n.isValidChar then return (.ofNat n, cs.drop digits) else none

/-- The character of an escape, after its backslash. -/
def escape? : List Char → Option (Char × List Char)
  | '"' :: cs => some ('"', cs)
  | '\\' :: cs => some ('\\', cs)
  | 'b' :: cs => some ('\x08', cs)
  | 'e' :: cs => some ('\x1b', cs)
  | 'f' :: cs => some ('\x0c', cs)
  | 'n' :: cs => some ('\n', cs)
  | 'r' :: cs => some ('\r', cs)
  | 't' :: cs => some ('\t', cs)
  | 'x' :: cs => codePoint? 2 cs
  | 'u' :: cs => codePoint? 4 cs
  | 'U' :: cs => codePoint? 8 cs
  | _ => none

/-- The rest of a string on one line. Only double quotes allow escapes. -/
def lineString? (quote : Char) : Nat → List Char → Option (List Char × List Char)
  | 0, _ | _, [] => none
  | fuel + 1, c :: cs => do
    if c = quote then return ([], cs)
    let (c, cs) ←
      if c = '\\' ∧ quote = '"' then escape? cs
      else if isPrinting c then some (c, cs)
      else none
    let (s, cs) ← lineString? quote fuel cs
    return (c :: s, cs)

/-- The end of a string between triple quotes: up to two more quotes belong to the string. -/
def closing? (quote : Char) (cs : List Char) : Option (List Char × List Char) :=
  let run := min 5 (cs.takeWhile (· = quote)).length
  if run < 3 then none else some (.replicate (run - 3) quote, cs.drop run)

/-- The rest of a string between triple quotes. A backslash at the end of a line takes away the
gap after it. -/
def linesString? (quote : Char) : Nat → List Char → Option (List Char × List Char)
  | 0, _ | _, [] => none
  | fuel + 1, c :: cs =>
    match closing? quote (c :: cs) with
    | some r => some r
    | none =>
      if c = '\\' ∧ quote = '"' then
        match afterLineEnd? (skipBlanks cs) with
        | some cs => linesString? quote fuel (skipGaps cs)
        | none => do
          let (c, cs) ← escape? cs
          let (s, cs) ← linesString? quote fuel cs
          return (c :: s, cs)
      else do
        let (c, cs) ← match afterLineEnd? (c :: cs) with
          | some cs => some ('\n', cs)
          | none => if isPrinting c then some (c, cs) else none
        let (s, cs) ← linesString? quote fuel cs
        return (c :: s, cs)

/-- The rest of a string after its first quote. A line end right after triple quotes is no part
of it. -/
def string? (quote : Char) (cs : List Char) : Option (List Char × List Char) :=
  if [quote, quote].isPrefixOf cs then
    let cs := cs.drop 2
    linesString? quote (cs.length + 1) ((afterLineEnd? cs).getD cs)
  else lineString? quote (cs.length + 1) cs

abbrev Key := List Char

def isBare (c : Char) : Bool := c.isAlphanum || c == '_' || c == '-'

def simpleKey? : List Char → Option (Key × List Char)
  | '"' :: cs => lineString? '"' (cs.length + 1) cs
  | '\'' :: cs => lineString? '\'' (cs.length + 1) cs
  | cs =>
    let key := cs.takeWhile isBare
    if key.isEmpty then none else some (key, cs.drop key.length)

/-- Keys with points between them. -/
def dottedKey? : Nat → List Char → Option (List Key × List Char)
  | 0, _ => none
  | fuel + 1, cs => do
    let (k, cs) ← simpleKey? (skipBlanks cs)
    match skipBlanks cs with
    | '.' :: cs => (dottedKey? fuel cs).map fun r => (k :: r.1, r.2)
    | cs => return ([k], cs)

/-- How deep keys and values may be nested. -/
def maxDepth : Nat := 80

/-- A key of at most 80 parts, and the text after the blanks behind it. -/
def key? (cs : List Char) : Option (List Key × List Char) := dottedKey? maxDepth cs

end Rhythm.Toml
