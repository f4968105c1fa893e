import Tripwire.Form
import Tripwire.Time.Rfc3339
import Tripwire.Value.Text

/-!
# Log entries

An entry has a category, a message, the JSON text of its context, and the instant of its appending.
-/
namespace Tripwire.Log

inductive Category where
  | condition
  | error
  | response
  deriving DecidableEq, Repr

namespace Category

def text : Category → String
  | .condition => "condition"
  | .error => "error"
  | .response => "response"

def names : List (String × Category) :=
  [("condition", .condition), ("error", .error), ("response", .response)]

def lower (c : Char) : Char := if 'A' ≤ c ∧ c ≤ 'Z' then Char.ofNat (c.toNat + 32) else c

def read? (s : String) : Option Category := names.lookup (String.ofList (s.toList.map lower))

def unknownMessage (s : String) : String := "unknown log category `" ++ s ++ "`"

end Category

structure Entry where
  category : Category
  message : String
  payload : String
  timestamp : Time.Instant
  deriving DecidableEq, Repr

namespace Entry

def read? (style : Form.Style) (v : Value) : Option Entry := do
  let fields ← Form.record? style ["category", "message", "payload", "timestamp"] v
  let category ← Form.required fields "category" (Form.name style Category.names)
  let message ← Form.required fields "message" Form.text
  let payload ← Form.required fields "payload" Form.text
  let timestamp ← Form.required fields "timestamp" fun v =>
    (Form.text v).bind fun s => Time.Instant.read? s.toList
  pure ⟨category, message, payload, timestamp⟩

def write (e : Entry) : Value :=
  .map [("category", .str e.category.text), ("message", .str e.message), ("payload", .str e.payload),
    ("timestamp", .str (String.ofList e.timestamp.write))]

end Entry
end Tripwire.Log
