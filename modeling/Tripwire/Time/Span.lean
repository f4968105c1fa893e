/-!
# Spans of time

A span counts nanoseconds. Forms give and take whole milliseconds of 64 bits.
-/
namespace Tripwire.Time

structure Span where
  nanos : Nat
  deriving DecidableEq, Repr

namespace Span

def millisLimit : Nat := Nat.pow 2 64 - 1

def ofMillis (ms : Nat) : Span := ⟨ms * 1000000⟩

def toMillis (s : Span) : Nat := min (s.nanos / 1000000) millisLimit

theorem toMillis_ofMillis {ms : Nat} (h : ms ≤ millisLimit) : (ofMillis ms).toMillis = ms := by
  simp [ofMillis, toMillis, h]

end Span
end Tripwire.Time
