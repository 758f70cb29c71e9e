/-! Places in a text, counted in characters. -/
namespace Rhythm.Notation

structure Span where
  start : Nat
  length : Nat
deriving DecidableEq, Repr

namespace Span

def stop (s : Span) : Nat := s.start + s.length

/-- The smallest span that covers both. -/
def join (s t : Span) : Span :=
  let start := min s.start t.start
  ⟨start, max s.stop t.stop - start⟩

/-- The same stretch, `n` characters later. -/
def shift (s : Span) (n : Nat) : Span := ⟨s.start + n, s.length⟩

instance : ToString Span := ⟨fun s => s!"{s.start}..{s.stop}"⟩

theorem join_shift (s t : Span) (n : Nat) : (s.shift n).join (t.shift n) = (s.join t).shift n := by
  simp only [join, shift, stop, mk.injEq]
  omega

end Span

end Rhythm.Notation
