import Rhythm.Settings
import Rhythm.Text.Numeral

/-! Settings as data of the kind that files hold. -/
namespace Rhythm

inductive Datum
  /-- What a kind of file takes for no content at all. -/
  | null
  /-- An integer from 0 to 2^64 - 1. -/
  | number (n : Nat)
  | text (cs : List Char)
  | list (items : List Datum)
  /-- Fields in the order of the file, a repeated one each time. -/
  | table (fields : List (List Char × Datum))
  /-- Anything that no setting can be. -/
  | other

namespace Datum

def number? : Datum → Option Nat
  | .number n => some n
  | _ => none

/-- A policy by its name. A table may name it by its only key. -/
def policy? : Datum → Option Policy
  | .text cs => Policy.ofName? (String.ofList cs)
  | .table [(cs, .null)] => Policy.ofName? (String.ofList cs)
  | _ => none

def set? (s : Settings) (name : List Char) (d : Datum) : Option Settings :=
  if name = "store_capacity".toList then d.number?.map fun n => { s with capacity := n }
  else if name = "eviction".toList then d.policy?.map fun p => { s with eviction := p }
  else if name = "seed".toList then d.number?.map fun n => { s with seed := .ofNat n }
  else some s

/-- The names of settings, in their order. -/
def names : List (List Char) := ["store_capacity".toList, "eviction".toList, "seed".toList]

/-- Settings by name, each at most once; those not named keep their defaults, and other names mean
nothing. A list gives them in order. -/
def settings? : Datum → Option Settings
  | .table fields =>
    if names.all fun name => fields.countP (·.1 = name) ≤ 1 then
      fields.foldlM (fun s f => set? s f.1 f.2) {}
    else none
  | .list items =>
    if items.length ≤ names.length then
      (names.zip items).foldlM (fun s f => set? s f.1 f.2) {}
    else none
  | _ => none

end Datum

end Rhythm
