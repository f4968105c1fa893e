import Tripwire.Proofs.Script.Stringify

namespace Tripwire

namespace Value

def setMember (name : String) (x : Script.Datum) :
    List (String × Script.Datum) → List (String × Script.Datum)
  | [] => [(name, x)]
  | (k, y) :: members =>
      if k = name then (k, x) :: members else (k, y) :: setMember name x members

mutual

/-- A value as a script reads it: each number is a double, and of several members of one name the last counts,
in the place of the first. -/
def datum : Value → Script.Datum
  | .null => .null
  | .bool b => .bool b
  | .int n => .number (.ofInt n)
  | .float x => .number x
  | .str s => .string s
  | .list items => .array (data items)
  | .map fields => .object (members [] fields)

def data : List Value → List Script.Datum
  | [] => []
  | v :: items => datum v :: data items

def members (before : List (String × Script.Datum)) :
    List (String × Value) → List (String × Script.Datum)
  | [] => before
  | (k, v) :: fields => members (setMember k (datum v) before) fields

end

end Value

namespace Script
open Tripwire.Action (Comparison SignCondition)

variable (write : Double → List Char) (x y : Datum)

namespace Datum

def equals : Bool :=
  match x.order? y with
  | some order? => order? = some .eq
  | none => x.stringify write = y.stringify write

def relates (c : Comparison) : Bool :=
  match c with
  | .lt | .gt | .le | .ge => (x.order? y).any c.accepts
  | .eq | .strictEq => x.equals write y
  | .ne | .strictNe => !x.equals write y

def join (soFar : Bool) (c : SignCondition) : Bool :=
  match c.joiner with
  | .and => soFar && x.relates write c.value.datum c.comparison
  | .or => soFar || x.relates write c.value.datum c.comparison

end Datum

section Eval
variable {write} {functions : Functions} {locals : Locals} {a b c : Expression} {p q r : Bool} {s t : String}

theorem eval_and (left : a.eval write functions locals = some (.bool p))
    (right : b.eval write functions locals = some (.bool q)) :
    (a.and b).eval write functions locals = some (.bool (p && q)) := by
  cases p <;> simp [Expression.eval, left, right]

theorem eval_and_of_false (left : a.eval write functions locals = some (.bool false)) :
    (a.and b).eval write functions locals = some (.bool false) := by
  simp [Expression.eval, left]

theorem eval_or (left : a.eval write functions locals = some (.bool p))
    (right : b.eval write functions locals = some (.bool q)) :
    (a.or b).eval write functions locals = some (.bool (p || q)) := by
  cases p <;> simp [Expression.eval, left, right]

theorem eval_choose (test : a.eval write functions locals = some (.bool p)) :
    (a.choose b c).eval write functions locals =
      if p then b.eval write functions locals else c.eval write functions locals := by
  cases p <;> simp [Expression.eval, test]

theorem eval_not (inner : a.eval write functions locals = some (.bool p)) :
    (Expression.not a).eval write functions locals = some (.bool !p) := by
  simp [Expression.eval, inner]

theorem eval_strictEq (left : a.eval write functions locals = some (.string s))
    (right : b.eval write functions locals = some (.string t)) :
    (Expression.compare .strictEq a b).eval write functions locals = some (.bool (s = t)) := by
  simp [Expression.eval, left, right, Datum.order?, Comparison.accepts, Text.compareUnits_eq_eq_iff]

theorem eval_compare {c : Comparison} {order? : Option Ordering}
    (left : a.eval write functions locals = some x) (right : b.eval write functions locals = some y)
    (order : x.order? y = some order?) :
    (Expression.compare c a b).eval write functions locals = some (.bool (c.accepts order?)) := by
  simp [Expression.eval, left, right, order]

theorem eval_reduce {x : String} {step seed : Expression} {items : List Datum} {first : Datum}
    (found : locals.lookup x = some (.array items))
    (seeded : seed.eval write functions locals = some first) :
    (Definition.Body.reduce x step seed).eval write functions locals =
      items.foldlM (fun acc c => step.eval write functions (("acc", acc) :: ("c", c) :: locals)) first := by
  simp [Definition.Body.eval, found, seeded]

end Eval

namespace Helper

def kinds : Functions := sameKind.define write fun _ _ => none

def equalities : Functions := equal.define write (kinds write)

def comparisons : Functions := compare.define write (equalities write)

theorem run_eq : run write = checkSignCondition.define write (comparisons write) := rfl

theorem kinds_eq : kinds write "sameKind" [x, y] = some (.bool (x.order? y).isSome) := by
  let locals : Locals := [("left", x), ("right", y)]
  have types : (Expression.compare .strictEq (.typeOf (.operand left)) (.typeOf (.operand right))).eval
      write (fun _ _ => none) locals = some (.bool (x.typeOf = y.typeOf)) := eval_strictEq rfl rfl
  have known : (Expression.includes ["number", "string", "boolean"] (.typeOf (.operand left))).eval write
    (fun _ _ => none) locals = some (.bool (["number", "string", "boolean"].contains x.typeOf)) := rfl
  refine (eval_and types known).trans ?_
  cases x <;> cases y <;> rfl

theorem equalities_eq : equalities write "equal" [x, y] = some (.bool (x.equals write y)) := by
  let locals : Locals := [("left", x), ("right", y)]
  have left' : (Expression.operand left).eval write (kinds write) locals = some x := rfl
  have right' : (Expression.operand right).eval write (kinds write) locals = some y := rfl
  have test : (Expression.call "sameKind" [left, right]).eval write (kinds write) locals =
    some (.bool (x.order? y).isSome) := kinds_eq write x y
  have texts : (Expression.compare .strictEq (.stringify (.operand left))
      (.stringify (.operand right))).eval write (kinds write) locals =
        some (.bool (String.ofList (x.stringify write) = String.ofList (y.stringify write))) :=
    eval_strictEq rfl rfl
  refine (eval_choose test).trans ?_
  unfold Datum.equals
  cases order : x.order? y with
  | none => simpa [String.ofList_inj] using texts
  | some order? => exact eval_compare x y left' right' order

theorem comparisons_eq (c : Comparison) :
    comparisons write "compare" [x, .string c.symbol, y] = some (.bool (x.relates write y c)) := by
  let locals : Locals := [("left", x), ("operator", .string c.symbol), ("right", y)]
  have found : (Comparison.all.map fun c => (c.symbol, arm c)).lookup c.symbol = some (arm c) := by
    cases c <;> rfl
  have kind : (Expression.call "sameKind" [left, right]).eval write (equalities write) locals =
    some (.bool (x.order? y).isSome) := kinds_eq write x y
  have equal : (Expression.call "equal" [left, right]).eval write (equalities write) locals =
    some (.bool (x.equals write y)) := equalities_eq write x y
  have chosen : comparisons write "compare" [x, .string c.symbol, y] =
      (arm c).eval write (equalities write) locals := by
    show (List.lookup c.symbol _).bind _ = _
    rw [found]
    rfl
  have ordered (c : Comparison) :
      (Expression.and (.call "sameKind" [left, right]) (.compare c (.operand left) (.operand right))).eval
        write (equalities write) locals = some (.bool ((x.order? y).any c.accepts)) := by
    cases order : x.order? y with
    | none =>
        rw [order] at kind
        exact eval_and_of_false kind
    | some order? =>
        rw [order] at kind
        exact eval_and kind (eval_compare x y rfl rfl order)
  rw [chosen]
  cases c with
  | lt | gt | le | ge => exact ordered _
  | eq | strictEq => exact equal
  | ne | strictNe => exact eval_not equal

theorem joins_iff (c : SignCondition) : (c.joiner.symbol = "&&") ↔ c.joiner = .and := by
  cases c.joiner <;> decide

theorem data_write (conditions : List SignCondition) :
    (Value.list (conditions.map SignCondition.write)).datum =
      .array (conditions.map fun c => c.write.datum) := by
  have items : Value.data (conditions.map SignCondition.write) =
      conditions.map fun c => c.write.datum := by
    induction conditions with
    | nil => rfl
    | cons c conditions ih => exact congrArg (c.write.datum :: ·) ih
  exact congrArg Datum.array items

theorem eval_step (b : Bool) (c : SignCondition) (list : Datum) :
    step.eval write (comparisons write)
        [("acc", .bool b), ("c", c.write.datum), ("value", x), ("conditions", list)] =
      some (.bool (x.join write b c)) := by
  let locals : Locals := [("acc", .bool b), ("c", c.write.datum), ("value", x), ("conditions", list)]
  have before : soFar.eval write (comparisons write) locals = some (.bool b) := rfl
  have here : next.eval write (comparisons write) locals =
      some (.bool (x.relates write c.value.datum c.comparison)) :=
    comparisons_eq write x c.value.datum c.comparison
  have test : (joins (.member "c" "type")).eval write (comparisons write) locals =
    some (.bool (c.joiner.symbol = "&&")) := eval_strictEq rfl rfl
  refine (eval_choose test).trans ?_
  rw [Datum.join]
  cases joiner : c.joiner with
  | and => exact eval_and before here
  | or => exact eval_or before here

theorem eval_seed (conditions : List SignCondition) :
    seed.eval write (comparisons write) [("value", x),
        ("conditions", .array (conditions.map fun c => c.write.datum))] =
      some (.bool (conditions.head?.any fun c => c.joiner = .and)) := by
  cases conditions with
  | nil => rfl
  | cons c conditions =>
      let locals : Locals :=
        [("value", x), ("conditions", .array ((c :: conditions).map fun c => c.write.datum))]
      have test : (joins (.firstMember "conditions" "type")).eval write (comparisons write) locals =
        some (.bool (c.joiner.symbol = "&&")) := eval_strictEq rfl rfl
      have some' : (Expression.nonempty "conditions").eval write (comparisons write) locals =
        some (.bool true) := rfl
      refine (eval_and some' test).trans ?_
      simp [joins_iff]

theorem run_checkSignCondition (conditions : List SignCondition) :
    run write "checkSignCondition" [x, (Value.list (conditions.map SignCondition.write)).datum] =
      some (.bool (conditions.foldl (x.join write)
        (conditions.head?.any fun c => c.joiner = .and))) := by
  rw [run_eq, data_write]
  let list : Datum := .array (conditions.map fun c => c.write.datum)
  have folded (b : Bool) (rest : List SignCondition) :
      (rest.map fun c => c.write.datum).foldlM (fun acc c => step.eval write (comparisons write)
          [("acc", acc), ("c", c), ("value", x), ("conditions", list)]) (.bool b) =
        some (.bool (rest.foldl (x.join write) b)) := by
    induction rest generalizing b with
    | nil => rfl
    | cons c rest ih =>
        rw [List.map_cons, List.foldlM_cons, eval_step]
        exact ih _
  have found : List.lookup "conditions" [("value", x), ("conditions", list)] = some list := rfl
  have reduced : (Definition.Body.reduce "conditions" step seed).eval write (comparisons write)
      [("value", x), ("conditions", list)] = _ := eval_reduce found (eval_seed write x conditions)
  exact reduced.trans (folded _ conditions)

theorem run_compare (c : Comparison) :
    run write "compare" [x, .string c.symbol, y] = some (.bool (x.relates write y c)) :=
  comparisons_eq write x y c

end Helper
end Script
end Tripwire
