import Rhythm.Generator.Euclidean
import Rhythm.Generator.Polygon
import Rhythm.Text.Letter

/-! Rhythms with a name. -/
namespace Rhythm

/-- The names and their patterns, in the order in which they are listed. -/
def presets : List (List Char × Pattern) := [
  ("tresillo".toList, euclidean 3 8),
  ("cinquillo".toList, euclidean 5 8),
  ("tri".toList, polygon 3 0 3),
  ("pent".toList, polygon 5 0 5),
  ("hex".toList, polygon 6 0 6),
  ("hept".toList, polygon 7 0 7),
  ("oct".toList, polygon 8 0 8)]

/-- The pattern with a name, in any case of its letters. -/
def preset? (name : List Char) : Option Pattern :=
  (presets.find? fun entry => Text.sameWord name entry.1).map (·.2)

end Rhythm
