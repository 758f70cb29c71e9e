import Rhythm.Text.Bytes
import Rhythm.Text.Cluster

/-! A line as it is typed, with backspaces that take back what was typed before. -/
namespace Rhythm.Console

open Text

structure TypedLine where
  /-- The characters so far, the last one first. -/
  reversed : List Char
  /-- How many bytes each backspace takes back, the next one first. -/
  lengths : List UInt8
deriving DecidableEq, Repr

namespace TypedLine

def empty : TypedLine := ⟨[], []⟩

/-- Adds a cluster, which a backspace can take back. Its length counts modulo 256, so of a cluster
of 256 bytes or more only the rest over a multiple of 256 can be taken back. -/
def add (l : TypedLine) (cluster : List Char) : TypedLine :=
  ⟨cluster.reverse ++ l.reversed, .ofNat (byteLength cluster) :: l.lengths⟩

def takeBack (l : TypedLine) : TypedLine :=
  match l.lengths with
  | [] => l
  | n :: ns => ⟨dropBytes n.toNat l.reversed, ns⟩

/-- A backspace is a cluster of its own. -/
def type (l : TypedLine) (cluster : List Char) : TypedLine :=
  if cluster = ['\x08'] then l.takeBack else l.add cluster

def chars (l : TypedLine) : List Char := l.reversed.reverse

/-- The line after all clusters of a text. -/
def ofText (cs : List Char) : TypedLine := (clusters cs).foldl type empty

end TypedLine

end Rhythm.Console
