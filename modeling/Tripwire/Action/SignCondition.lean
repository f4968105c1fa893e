import Tripwire.Form
import Tripwire.Value.Order

/-!
# Sign conditions

A fetched value is signed when a list of comparisons says so. The list is folded from the left, each
comparison being joined to what came before it, without precedence.
-/
namespace Tripwire.Action

inductive Joiner where
  | and
  | or
  deriving DecidableEq, Repr

def Joiner.names : List (String × Joiner) := [("&&", .and), ("and", .and), ("||", .or), ("or", .or)]

def Joiner.symbol : Joiner → String
  | .and => "&&"
  | .or => "||"

inductive Comparison where
  | lt
  | gt
  | le
  | ge
  | eq
  | strictEq
  | ne
  | strictNe
  deriving DecidableEq, Repr

namespace Comparison

def all : List Comparison := [.lt, .gt, .le, .ge, .eq, .strictEq, .ne, .strictNe]

def symbol : Comparison → String
  | .lt => "<"
  | .gt => ">"
  | .le => "<="
  | .ge => ">="
  | .eq => "=="
  | .strictEq => "==="
  | .ne => "!="
  | .strictNe => "!=="

def names : List (String × Comparison) := all.map fun c => (c.symbol, c)

def isOrdering : Comparison → Bool
  | .lt | .gt | .le | .ge => true
  | .eq | .strictEq | .ne | .strictNe => false

/-- Whether it holds of operands that compare so. Operands that do not compare are unequal, and
equality is never looser than strict equality. -/
def accepts (c : Comparison) (order? : Option Ordering) : Bool :=
  match c with
  | .lt => order? = some .lt
  | .gt => order? = some .gt
  | .le => order? = some .lt || order? = some .eq
  | .ge => order? = some .gt || order? = some .eq
  | .eq | .strictEq => order? = some .eq
  | .ne | .strictNe => order? ≠ some .eq

end Comparison

structure SignCondition where
  joiner : Joiner
  comparison : Comparison
  value : Value
  deriving DecidableEq, Repr

namespace SignCondition

def holds (c : SignCondition) (actual : Value) : Bool :=
  c.comparison.accepts (actual.compare? c.value)

def join (actual : Value) (soFar : Bool) (c : SignCondition) : Bool :=
  match c.joiner with
  | .and => soFar && c.holds actual
  | .or => soFar || c.holds actual

/-- Whether a fetched value is signed. The first joiner says what the fold begins with; without
conditions nothing is signed. -/
def signs (conditions : List SignCondition) (actual : Value) : Bool :=
  match conditions with
  | [] => false
  | first :: _ => conditions.foldl (join actual) (first.joiner = .and)

def read? (style : Form.Style) (v : Value) : Option SignCondition := do
  let fields ← Form.record? style ["type", "operator", "value"] v
  let joiner ← Form.required fields "type" (Form.name style Joiner.names)
  let comparison ← Form.required fields "operator" (Form.name style Comparison.names)
  let value ← Form.required fields "value" (some <| style.free ·)
  pure ⟨joiner, comparison, value⟩

def write (c : SignCondition) : Value :=
  .map [("type", .str c.joiner.symbol), ("operator", .str c.comparison.symbol), ("value", c.value)]

end SignCondition
end Tripwire.Action
