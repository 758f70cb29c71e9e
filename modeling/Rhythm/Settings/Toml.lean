import Rhythm.Settings.Toml.Scalar
import Rhythm.Settings.Toml.Tree

/-! Data in TOML. -/
namespace Rhythm.Toml

mutual

/-- A value and the text after it. The depth counts the brackets that may still be opened. An
empty list has no content. -/
def value? : Nat → Nat → List Char → Option (Datum × List Char)
  | 0, _, _ => none
  | fuel + 1, depth, cs =>
    match cs, depth with
    | '"' :: cs, _ => (string? '"' cs).map fun r => (.text r.1, r.2)
    | '\'' :: cs, _ => (string? '\'' cs).map fun r => (.text r.1, r.2)
    | '[' :: cs, depth + 1 =>
      (items? fuel depth (skipLines false cs)).map fun r =>
        (if r.1.isEmpty then .null else .list r.1, r.2)
    | '{' :: cs, depth + 1 =>
      (fields? fuel depth [] (skipLines false cs)).map fun r =>
        ((Node.table .dotted r.1).datum, r.2)
    | cs, _ =>
      let w := plainWord cs
      (plain? w).map fun d => (d, cs.drop w.length)

/-- The rest of a list, and the text after it. -/
def items? : Nat → Nat → List Char → Option (List Datum × List Char)
  | 0, _, _ => none
  | _ + 1, _, ']' :: cs => some ([], cs)
  | fuel + 1, depth, cs =>
    match value? fuel depth cs with
    | none => none
    | some (d, cs) =>
      match skipLines false cs with
      | ',' :: cs => (items? fuel depth (skipLines false cs)).map fun r => (d :: r.1, r.2)
      | ']' :: cs => some ([d], cs)
      | _ => none

/-- The fields of a table in braces, some of them known already, and the text after it. Lines may
end wherever blanks may stand, but not within a key. -/
def fields? : Nat → Nat → Fields → List Char → Option (Fields × List Char)
  | 0, _, _, _ => none
  | _ + 1, _, fields, '}' :: cs => some (fields, cs)
  | fuel + 1, depth, fields, cs =>
    match key? cs with
    | none => none
    | some (key, cs) =>
      match skipLines false cs with
      | '=' :: cs =>
        match value? fuel depth (skipLines false cs) with
        | none => none
        | some (d, cs) =>
          match fields.define? d key with
          | none => none
          | some fields =>
            match skipLines false cs with
            | ',' :: cs => fields? fuel depth fields (skipLines false cs)
            | '}' :: cs => some (fields, cs)
            | _ => none
      | _ => none

end

/-- One heading or one key with its value. -/
def statement? (d : Document) : List Char → Option (Document × List Char)
  | '[' :: '[' :: cs => do
    let (key, cs) ← key? cs
    let cs ← match cs with
      | ']' :: ']' :: cs => lineEnd? cs
      | _ => none
    return (← d.append? key, cs)
  | '[' :: cs => do
    let (key, cs) ← key? cs
    let cs ← match cs with
      | ']' :: cs => lineEnd? cs
      | _ => none
    return (← d.open? key, cs)
  | cs => do
    let (key, cs) ← key? cs
    match cs with
    | '=' :: cs =>
      let (value, cs) ← value? (2 * cs.length + 1) maxDepth (skipBlanks cs)
      let cs ← lineEnd? cs
      return (← d.define? key value, cs)
    | _ => none

def statements? : Nat → Document → List Char → Option Document
  | 0, _, _ => none
  | fuel + 1, d, cs =>
    match skipLines false cs with
    | [] => some d
    | cs =>
      match statement? d cs with
      | none => none
      | some (d, cs) => statements? fuel d cs

/-- The top table of a text, which may begin with a byte order mark. Every statement takes a
character, so the length is fuel enough. -/
def read? (cs : List Char) : Option Datum :=
  let cs := if cs.head? = some '\uFEFF' then cs.drop 1 else cs
  (statements? (cs.length + 1) .empty cs).map (·.datum)

end Rhythm.Toml
