import Rhythm.Text.Blank
import Rhythm.Text.Bytes

/-! Command words. A line is a command when it is a word by itself or goes on with a blank after it;
of several such words the longest counts. -/
namespace Rhythm.Console

/-- What a line says after a word, if the line is the word or goes on with a blank. -/
def argument? : List Char → List Char → Option (List Char)
  | [], [] => some []
  | [], ' ' :: line => some (Text.trim line)
  | c :: word, d :: line => if c = d then argument? word line else none
  | _, _ => none

/-- Words and what they stand for, longer words first, and of equally long ones the older first. -/
structure Registry (α : Type) where
  entries : List (List Char × α)

namespace Registry

variable {α : Type}

def empty : Registry α := ⟨[]⟩

/-- Puts an entry behind those at least as long. -/
def place (entry : List Char × α) : List (List Char × α) → List (List Char × α)
  | [] => [entry]
  | e :: es =>
    if Text.byteLength entry.1 ≤ Text.byteLength e.1 then e :: place entry es else entry :: e :: es

def register (r : Registry α) (word : List Char) (a : α) : Registry α :=
  ⟨place (word, a) r.entries⟩

/-- The registry of entries in the order of their registration. -/
def ofList (entries : List (List Char × α)) : Registry α :=
  entries.foldl (fun r e => r.register e.1 e.2) empty

def words (r : Registry α) : List (List Char) := r.entries.map (·.1)

/-- What the first fitting word stands for, and what the line says after it. -/
def lookup (r : Registry α) (line : List Char) : Option (α × List Char) :=
  r.entries.findSome? fun e => (argument? e.1 line).map (e.2, ·)

end Registry

end Rhythm.Console
