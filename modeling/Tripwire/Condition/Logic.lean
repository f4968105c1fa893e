import Tripwire.Condition.Satisfied
import Tripwire.Fault
import Tripwire.Form
import Tripwire.Time.Span

/-!
# Conditional logic

A policy says when the satisfied conditions are enough to fire. With it goes the interval that bounds
each observation and separates the cycles.
-/
namespace Tripwire.Condition

inductive Policy where
  | every
  | threshold (value : Nat)
  | target (id : Nat)
  deriving DecidableEq, Repr

def Policy.text : Policy → String
  | .every => "every"
  | .threshold value => "threshold(" ++ toString value ++ ")"
  | .target id => "target(" ++ toString id ++ ")"

structure Logic where
  policy : Policy
  interval? : Option Time.Span
  deriving DecidableEq, Repr

inductive Outcome where
  | wait
  | fire
  deriving DecidableEq, Repr

def Policy.met (policy : Policy) (satisfied : Satisfied) (total : Nat) : Bool :=
  match policy with
  | .every => satisfied.size = total
  | .threshold value => value ≤ satisfied.size
  | .target id => id ∈ satisfied

def decideOutcome (policy? : Option Policy) (satisfied : Satisfied) (total : Nat) : Outcome :=
  if policy?.any (·.met satisfied total) then .fire else .wait

inductive Kind where
  | every
  | threshold
  | target
  deriving DecidableEq, Repr

def Kind.names : List (String × Kind) :=
  [("every", .every), ("threshold", .threshold), ("target", .target)]

def Kind.text : Kind → String
  | .every => "every"
  | .threshold => "threshold"
  | .target => "target"

structure LogicForm where
  kind : Kind
  value? : Option Nat
  target? : Option Nat
  intervalMillis? : Option Nat
  deriving DecidableEq, Repr

def Logic.ofForm (form : LogicForm) : Except Fault Logic :=
  let interval? := form.intervalMillis?.map Time.Span.ofMillis
  match form.kind, form.value?, form.target? with
  | .every, _, _ => .ok ⟨.every, interval?⟩
  | .threshold, some value, _ => .ok ⟨.threshold value, interval?⟩
  | .threshold, none, _ => .error (.incompleteLogic "threshold" "value")
  | .target, _, some id => .ok ⟨.target id, interval?⟩
  | .target, _, none => .error (.incompleteLogic "target" "target_condition")

def Logic.toForm (logic : Logic) : LogicForm :=
  let intervalMillis? := logic.interval?.map Time.Span.toMillis
  match logic.policy with
  | .every => ⟨.every, none, none, intervalMillis?⟩
  | .threshold value => ⟨.threshold, some value, none, intervalMillis?⟩
  | .target id => ⟨.target, none, some id, intervalMillis?⟩

def LogicForm.read? (style : Form.Style) (v : Value) : Option LogicForm := do
  let fields ← Form.record? style ["type", "value", "target_condition", "interval_ms"] v
  let kind ← Form.required fields "type" (Form.name style Kind.names)
  let value? ← Form.optional fields "value" Form.u64
  let target? ← Form.optional fields "target_condition" Form.u32
  let intervalMillis? ← Form.optional fields "interval_ms" Form.u64
  pure ⟨kind, value?, target?, intervalMillis?⟩

def LogicForm.write (form : LogicForm) : Value :=
  .map (("type", .str form.kind.text) ::
    Form.field? "value" .ofNat form.value? ++
    Form.field? "target_condition" .ofNat form.target? ++
    Form.field? "interval_ms" .ofNat form.intervalMillis?)

def Logic.write (logic : Logic) : Value := logic.toForm.write

end Tripwire.Condition
