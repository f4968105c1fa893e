/-!
# Rings

A ring keeps the last entries, as many as its capacity. Once it is full, each new entry takes the
place of the oldest.
-/
namespace Tripwire.Log

structure Ring (α : Type) where
  capacity : Nat
  entries : Array α
  next : Nat

namespace Ring
variable {α : Type}

def standardCapacity : Nat := 1000

/-- An empty ring. A capacity of zero counts as one. -/
def ofCapacity (capacity : Nat) : Ring α := ⟨max capacity 1, #[], 0⟩

def standard : Ring α := ofCapacity standardCapacity

def append (ring : Ring α) (a : α) : Ring α :=
  if ring.entries.size < ring.capacity then { ring with entries := ring.entries.push a }
  else
    { ring with
      entries := ring.entries.setIfInBounds ring.next a
      next := (ring.next + 1) % ring.capacity }

def size (ring : Ring α) : Nat := ring.entries.size

def toList (ring : Ring α) : List α :=
  ring.entries.toList.drop ring.next ++ ring.entries.toList.take ring.next

def last? (ring : Ring α) : Option α := ring.toList.getLast?

end Ring
end Tripwire.Log
