import Rhythm.Settings.Datum
import Rhythm.Settings.Toml.Lexeme

/-! Tables of TOML while they grow. What may be added to a table depends on what made it. -/
namespace Rhythm.Toml

inductive Origin
  /-- Its own heading. -/
  | heading
  /-- The heading of a table inside it. -/
  | implied
  /-- A key with a point. -/
  | dotted
deriving DecidableEq, Repr

inductive Node
  /-- What is complete, also a table in braces. -/
  | value (d : Datum)
  | table (origin : Origin) (fields : List (Key × Node))
  /-- A list of tables, of which only the last can grow. -/
  | tables (last : List (Key × Node))

abbrev Fields := List (Key × Node)

namespace Fields

/-- Replaces the field of this name or adds it at the end. -/
def put (fields : Fields) (k : Key) (n : Node) : Fields :=
  fields.filter (·.1 ≠ k) ++ [(k, n)]

/-- Adds a value under a key. The key's points lead through tables made by such keys, and never
into one with a heading; what lies in a list of tables or was implied may only be passed. -/
def define? (value : Datum) : List Key → Fields → Option Fields
  | [], _ => none
  | [k], fields =>
    match fields.lookup k with
    | none => some (fields.put k (.value value))
    | some _ => none
  | k :: ks, fields => do
    let node ← match fields.lookup k with
      | none => (define? value ks []).map (.table .dotted)
      | some (.table .dotted fs) => (define? value ks fs).map (.table .dotted)
      | some (.table .implied fs) =>
        if ks.length = 1 then none else (define? value ks fs).map (.table .implied)
      | some (.tables fs) => if ks.length = 1 then none else (define? value ks fs).map .tables
      | _ => none
    return fields.put k node

/-- Changes the node at a heading's key. Tables on the way are implied. -/
def alter? (f : Option Node → Option Node) : List Key → Fields → Option Fields
  | [], _ => none
  | [k], fields => (f (fields.lookup k)).map (fields.put k)
  | k :: ks, fields => do
    let node ← match fields.lookup k with
      | none => (alter? f ks []).map (.table .implied)
      | some (.table origin fs) => (alter? f ks fs).map (.table origin)
      | some (.tables fs) => (alter? f ks fs).map .tables
      | some (.value _) => none
    return fields.put k node

end Fields

namespace Node

/-- A heading opens a table that was at most implied. -/
def opened? : Option Node → Option Node
  | none => some (.table .heading [])
  | some (.table .implied fs) => some (.table .heading fs)
  | _ => none

/-- A heading in double brackets opens one more table of a list. -/
def appended? : Option Node → Option Node
  | none | some (.tables _) => some (.tables [])
  | _ => none

/-- Adds a value to an open table. -/
def defined? (value : Datum) (key : List Key) : Option Node → Option Node
  | some (.table origin fs) => (Fields.define? value key fs).map (.table origin)
  | some (.tables fs) => (Fields.define? value key fs).map .tables
  | _ => none

mutual

/-- An empty table has no content. -/
def datum : Node → Datum
  | .value d => d
  | .table _ fs => if fs.isEmpty then .null else .table (fields fs)
  | .tables _ => .other

def fields : List (Key × Node) → List (Key × Datum)
  | [] => []
  | (k, n) :: fs => (k, n.datum) :: fields fs

end

end Node

/-- The top table of a text as far as it is read, and the table that keys belong to now. -/
structure Document where
  fields : Fields
  heading : List Key

namespace Document

def empty : Document := ⟨[], []⟩

def define? (d : Document) (key : List Key) (value : Datum) : Option Document := do
  let fields ←
    if d.heading.isEmpty then d.fields.define? value key
    else d.fields.alter? (Node.defined? value key) d.heading
  return { d with fields }

def open? (d : Document) (key : List Key) : Option Document :=
  (d.fields.alter? Node.opened? key).map fun fields => ⟨fields, key⟩

def append? (d : Document) (key : List Key) : Option Document :=
  (d.fields.alter? Node.appended? key).map fun fields => ⟨fields, key⟩

def datum (d : Document) : Datum := .table (Node.fields d.fields)

end Document

end Rhythm.Toml
