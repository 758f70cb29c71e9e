import Rhythm.Text.Cluster.Class

/-! Clusters: the characters of a text as a reader counts them, which are Unicode's extended
grapheme clusters. -/
namespace Rhythm.Text

/-- How far a sequence has come that needs a third character to be joined. -/
inductive Chain
  | none
  | begun
  /-- The next character is joined if it is of the kind that began the sequence. -/
  | ready
deriving DecidableEq, Repr

/-- What the characters read so far say about a break before the next one. -/
structure ClusterState where
  /-- The class of the last character. -/
  last : ClusterClass
  /-- A consonant, marks and a linker among them. -/
  conjunct : Chain
  /-- A pictograph, marks and a joiner. -/
  emoji : Chain
  /-- Whether the last character is the first half of a flag. -/
  halfFlag : Bool
deriving DecidableEq, Repr

namespace ClusterState

def conjunctAfter : Chain → ClusterClass → Chain
  | _, .consonant => .begun
  | .none, _ => .none
  | _, .linker => .ready
  | s, .extend => s
  | s, .joiner => s
  | _, _ => .none

def emojiAfter : Chain → ClusterClass → Chain
  | _, .pictograph => .begun
  | .begun, .extend => .begun
  | .begun, .linker => .begun
  | .begun, .nonJoiner => .begun
  | .begun, .joiner => .ready
  | _, _ => .none

/-- The state before the first character. -/
def first (k : ClusterClass) : ClusterState :=
  ⟨k, conjunctAfter .none k, emojiAfter .none k, k = .regional⟩

def next (s : ClusterState) (k : ClusterClass) : ClusterState :=
  ⟨k, conjunctAfter s.conjunct k, emojiAfter s.emoji k, k = .regional ∧ !s.halfFlag⟩

/-- Whether the parts of a syllable of Hangul may follow each other. -/
def inSyllable : ClusterClass → ClusterClass → Bool
  | .leading, .leading | .leading, .vowel | .leading, .openSyllable
  | .leading, .closedSyllable => true
  | .openSyllable, .vowel | .openSyllable, .trailing => true
  | .vowel, .vowel | .vowel, .trailing => true
  | .closedSyllable, .trailing | .trailing, .trailing => true
  | _, _ => false

/-- Whether a character stands alone, but for a line feed after a carriage return. -/
def isAlone : ClusterClass → Bool
  | .carriageReturn | .lineFeed | .control => true
  | _ => false

/-- Whether a character belongs to any that it follows. -/
def isMark : ClusterClass → Bool
  | .extend | .linker | .joiner | .nonJoiner | .spacing => true
  | _ => false

/-- Whether the next character belongs to the cluster of the last one. -/
def joins (s : ClusterState) (k : ClusterClass) : Bool :=
  if s.last = .carriageReturn ∧ k = .lineFeed then true
  else if isAlone s.last || isAlone k then false
  else inSyllable s.last k || isMark k || s.last = .prepend ||
    (s.conjunct = .ready && k = .consonant) || (s.emoji = .ready && k = .pictograph) ||
    (s.halfFlag && k = .regional)

end ClusterState

/-- The clusters of the rest of a text, of which the first continues a cluster. -/
def clustersFrom (s : ClusterState) : List Char → List Char × List (List Char)
  | [] => ([], [])
  | c :: cs =>
    let k := ClusterClass.of c
    let (g, gs) := clustersFrom (s.next k) cs
    if s.joins k then (c :: g, gs) else ([], (c :: g) :: gs)

/-- The clusters of a text in their order. -/
def clusters : List Char → List (List Char)
  | [] => []
  | c :: cs =>
    let (g, gs) := clustersFrom (.first (.of c)) cs
    (c :: g) :: gs

end Rhythm.Text
