import Tripwire.Form
import Tripwire.Time.Rfc3339

/-!
# Run constraints

Bounds on how often and for how long a circuit may fire. They are looked at in a fixed order, and the
first one that is exhausted is the one reported.
-/
namespace Tripwire.Run

structure Constraints where
  maxExecutions? : Option Nat
  maxCompletions? : Option Nat
  start? : Option Time.Instant
  stop? : Option Time.Instant
  deriving DecidableEq, Repr

structure Counters where
  executed : Nat
  completed : Nat
  deriving DecidableEq, Repr

inductive Bound where
  | maxExecutions
  | dateWindow
  | maxCompletions
  deriving DecidableEq, Repr

def Bound.text : Bound → String
  | .maxExecutions => "max_executions"
  | .dateWindow => "date_window"
  | .maxCompletions => "max_successful_completions"

namespace Counters

def zero : Counters := ⟨0, 0⟩

def read? (style : Form.Style) (v : Value) : Option Counters := do
  let fields ← Form.record? style ["executed_count", "successful_completion_count"] v
  let executed ← Form.required fields "executed_count" Form.u64
  let completed ← Form.required fields "successful_completion_count" Form.u64
  pure ⟨executed, completed⟩

def write (c : Counters) : Value :=
  .map [("executed_count", .ofNat c.executed), ("successful_completion_count", .ofNat c.completed)]

end Counters

namespace Constraints

def isEmpty (c : Constraints) : Bool :=
  c.maxExecutions?.isNone && c.maxCompletions?.isNone && c.start?.isNone && c.stop?.isNone

def allows (c : Constraints) (at_ : Time.Instant) : Bool := Time.within at_ c.start? c.stop?

def exhausted? (c : Constraints) (counters : Counters) (at_ : Time.Instant) : Option Bound :=
  if c.maxExecutions?.any (· ≤ counters.executed) then some .maxExecutions
  else if !c.allows at_ then some .dateWindow
  else if c.maxCompletions?.any (· ≤ counters.completed) then some .maxCompletions
  else .none

def readInstant (v : Value) : Option Time.Instant :=
  (Form.text v).bind fun s => Time.Instant.read? s.toList

def read? (style : Form.Style) (v : Value) : Option Constraints := do
  let fields ← Form.record? style
    ["max_executions", "max_successful_completions", "start_date", "end_date"] v
  let maxExecutions? ← Form.optional fields "max_executions" Form.u64
  let maxCompletions? ← Form.optional fields "max_successful_completions" Form.u64
  let start? ← Form.optional fields "start_date" readInstant
  let stop? ← Form.optional fields "end_date" readInstant
  pure ⟨maxExecutions?, maxCompletions?, start?, stop?⟩

def write (c : Constraints) : Value :=
  let date (t : Time.Instant) : Value := .str (String.ofList t.write)
  .map [("max_executions", .ofOption .ofNat c.maxExecutions?),
    ("max_successful_completions", .ofOption .ofNat c.maxCompletions?),
    ("start_date", .ofOption date c.start?), ("end_date", .ofOption date c.stop?)]

end Constraints

/-- What a circuit is held to. Without constraints it may always run. -/
abbrev Gate := Option Constraints

def Gate.exhausted? (gate : Gate) (counters : Counters) (at_ : Time.Instant) : Option Bound :=
  gate.bind (·.exhausted? counters at_)

end Tripwire.Run
