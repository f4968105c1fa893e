/-!
# Stop signals

A stop signal is a flag that is raised once and for all. Its handles share it.
-/
namespace Tripwire.Rehearsal

structure Signals where
  raised : List Bool
  handles : List Nat
  deriving DecidableEq, Repr

namespace Signals

def start : Signals := ⟨[false], [0]⟩

def signalOf (s : Signals) (handle : Nat) : Nat := s.handles[handle]?.getD 0

def isRaised (s : Signals) (handle : Nat) : Bool := s.raised[s.signalOf handle]?.getD false

def raise (s : Signals) (handle : Nat) : Signals :=
  { s with raised := s.raised.set (s.signalOf handle) true }

def clone (s : Signals) (handle : Nat) : Signals :=
  { s with handles := s.handles ++ [s.signalOf handle] }

def fresh (s : Signals) : Signals :=
  { raised := s.raised ++ [false], handles := s.handles ++ [s.raised.length] }

def patience : Nat := 10

def wait (s : Signals) (handle : Nat) (raiseAfter? : Option Nat) : Signals × Bool :=
  let woken := s.isRaised handle || raiseAfter?.any (· < patience)
  (if raiseAfter?.isSome then s.raise handle else s, woken)

def states (s : Signals) : List Bool := (List.range s.handles.length).map s.isRaised

end Signals
end Tripwire.Rehearsal
