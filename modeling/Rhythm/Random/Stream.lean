import Rhythm.Random.Pcg32

/-! Generators for named streams, so that one seed serves many independent draws. -/
namespace Rhythm.Random

/-- The 64-bit FNV-1a hash of a name's UTF-8 bytes. -/
def nameHash (name : List Char) : UInt64 :=
  (name.flatMap String.utf8EncodeChar).foldl
    (fun h b => (h ^^^ b.toUInt64) * 0x100000001b3) 0xcbf29ce484222325

/-- The generator of the stream with a name, under a seed. -/
def stream (seed : UInt64) (name : List Char) : Pcg32 := Pcg32.ofSeed (seed ^^^ nameHash name)

/-- The first draw of a named stream, as a seed for something else. -/
def derivedSeed (seed : UInt64) (name : List Char) : UInt64 := (word64 (stream seed name)).1

end Rhythm.Random
