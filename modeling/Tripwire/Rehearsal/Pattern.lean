import Tripwire.Form
import Tripwire.Rehearsal.Wait

/-!
# Watchers with a pattern

A watcher that reports what a fixed list of observations says, again and again. Each observation takes
its time first; one that is given up meanwhile uses up nothing of the pattern.
-/
namespace Tripwire.Rehearsal

inductive Observation where
  | holds
  | holdsNot
  | nothing
  | failure
  deriving DecidableEq, Repr

namespace Observation

def names : List (String × Observation) :=
  [("match", .holds), ("unmatch", .holdsNot), ("idle", .nothing), ("fail", .failure)]

def text : Observation → String
  | .holds => "match"
  | .holdsNot => "unmatch"
  | .nothing => "idle"
  | .failure => "fail"

def label : Observation → String
  | .holds => "Match"
  | .holdsNot => "Unmatch"
  | .nothing => "Idle"
  | .failure => "Fail"

end Observation

structure Pattern where
  name : String
  observations : List Observation
  latencyMillis : Nat
  cursor : Nat
  deriving DecidableEq, Repr

namespace Pattern

def describe (p : Pattern) : String := "virtual:" ++ p.name

/-- What the next observation reports. An empty pattern reports nothing. -/
def current (p : Pattern) : Observation :=
  (p.observations[p.cursor % p.observations.length]?).getD .nothing

def advance (p : Pattern) : Pattern :=
  if p.observations.isEmpty then p else { p with cursor := p.cursor + 1 }

def failureText (p : Pattern) : String := p.name ++ " failed to observe"

def watch (p : Pattern) : Nat → List Observation
  | 0 => []
  | times + 1 => p.current :: p.advance.watch times

def watchTime (p : Pattern) (times : Nat) : Nat := times * sleepTime p.latencyMillis

end Pattern
end Tripwire.Rehearsal
