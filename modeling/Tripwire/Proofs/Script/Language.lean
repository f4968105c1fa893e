import Mathlib.Data.List.Infix
import Tripwire.Proofs.Text.Units
import Tripwire.Script.Render

/-!
# The language of the helpers

The helpers of a script that decide about a signature, as definitions with a text and a meaning. What they
mean is what JavaScript makes of their text, for the few forms of it that they need. A text is written without
parentheses, which these forms do not need where they stand.
-/
namespace Tripwire.Script

inductive Datum where
  | null
  | bool (b : Bool)
  | number (x : Double)
  | string (s : String)
  | array (items : List Datum)
  | object (members : List (String × Datum))

namespace Datum

def typeOf : Datum → String
  | .bool _ => "boolean"
  | .number _ => "number"
  | .string _ => "string"
  | .null | .array _ | .object _ => "object"

def order? : Datum → Datum → Option (Option Ordering)
  | .bool p, .bool q => some (some (compare p.toNat q.toNat))
  | .number x, .number y => some (x.compare? y)
  | .string s, .string t => some (some (Text.compareUnits s t))
  | _, _ => none

def member? (field : String) : Datum → Option Datum
  | .object members => members.lookup field
  | _ => none

def items? : Datum → Option (List Datum)
  | .array items => some items
  | _ => none

variable (write : Double → List Char)

mutual

def stringify : Datum → List Char
  | .null => ['n', 'u', 'l', 'l']
  | .bool true => ['t', 'r', 'u', 'e']
  | .bool false => ['f', 'a', 'l', 's', 'e']
  | .number x => if x.isFinite then write x else ['n', 'u', 'l', 'l']
  | .string s => Value.literal s.toList
  | .array [] => ['[', ']']
  | .array (x :: xs) => '[' :: (stringify x ++ stringifyItems xs)
  | .object [] => ['\x7b', '\x7d']
  | .object ((k, x) :: members) =>
      '\x7b' :: (Value.literal k.toList ++ ':' :: (stringify x ++ stringifyMembers members))

def stringifyItems : List Datum → List Char
  | [] => [']']
  | x :: xs => ',' :: (stringify x ++ stringifyItems xs)

def stringifyMembers : List (String × Datum) → List Char
  | [] => ['\x7d']
  | (k, x) :: members =>
      ',' :: (Value.literal k.toList ++ ':' :: (stringify x ++ stringifyMembers members))

end

end Datum

inductive Operand where
  | name (x : String)
  | member (x field : String)
  | firstMember (x field : String)

inductive Expression where
  | operand (o : Operand)
  | string (s : String)
  | typeOf (e : Expression)
  | stringify (e : Expression)
  | includes (items : List String) (e : Expression)
  | compare (c : Action.Comparison) (a b : Expression)
  | nonempty (x : String)
  | not (e : Expression)
  | and (a b : Expression)
  | or (a b : Expression)
  | choose (a b c : Expression)
  | call (f : String) (operands : List Operand)

def Operand.text : Operand → String
  | .name x => x
  | .member x field => x ++ "." ++ field
  | .firstMember x field => x ++ "[0]." ++ field

def quote (s : String) : String := String.ofList (Value.literal s.toList)

def listed (texts : List String) : String := String.intercalate ", " texts

def Expression.text : Expression → String
  | .operand o => o.text
  | .string s => quote s
  | .typeOf e => "typeof " ++ e.text
  | .stringify e => "JSON.stringify(" ++ e.text ++ ")"
  | .includes items e => "[" ++ listed (items.map quote) ++ "].includes(" ++ e.text ++ ")"
  | .compare c a b => a.text ++ " " ++ c.symbol ++ " " ++ b.text
  | .nonempty x => x ++ ".length > 0"
  | .not e => "!" ++ e.text
  | .and a b => a.text ++ " && " ++ b.text
  | .or a b => a.text ++ " || " ++ b.text
  | .choose a b c => a.text ++ " ? " ++ b.text ++ " : " ++ c.text
  | .call f operands => f ++ "(" ++ listed (operands.map Operand.text) ++ ")"

/-- What functions return. Where an error is thrown they return nothing. -/
abbrev Functions := String → List Datum → Option Datum

abbrev Locals := List (String × Datum)

def Operand.eval (locals : Locals) : Operand → Option Datum
  | .name x => locals.lookup x
  | .member x field => (locals.lookup x).bind (Datum.member? field)
  | .firstMember x field =>
      (locals.lookup x).bind fun list => list.items?.bind fun items => items.head?.bind (Datum.member? field)

variable (write : Double → List Char) (functions : Functions)

def Expression.eval (locals : Locals) : Expression → Option Datum
  | .operand o => o.eval locals
  | .string s => some (.string s)
  | .typeOf e => (e.eval locals).map fun x => .string x.typeOf
  | .stringify e => (e.eval locals).map fun x => .string (String.ofList (x.stringify write))
  | .includes items e =>
      match e.eval locals with
      | some (.string s) => some (.bool (items.contains s))
      | _ => none
  | .compare c a b =>
      match a.eval locals, b.eval locals with
      | some x, some y => (x.order? y).map fun order? => .bool (c.accepts order?)
      | _, _ => none
  | .nonempty x =>
      (locals.lookup x).bind fun list => list.items?.map fun items => .bool !items.isEmpty
  | .not e =>
      match e.eval locals with
      | some (.bool b) => some (.bool !b)
      | _ => none
  | .and a b =>
      match a.eval locals with
      | some (.bool true) => b.eval locals
      | some (.bool false) => some (.bool false)
      | _ => none
  | .or a b =>
      match a.eval locals with
      | some (.bool true) => some (.bool true)
      | some (.bool false) => b.eval locals
      | _ => none
  | .choose a b c =>
      match a.eval locals with
      | some (.bool true) => b.eval locals
      | some (.bool false) => c.eval locals
      | _ => none
  | .call f operands => (operands.mapM (Operand.eval locals)).bind (functions f)

inductive Definition.Body where
  | result (e : Expression)
  | switch (x : String) (cases : List (String × Expression))
  | reduce (x : String) (step seed : Expression)

structure Definition where
  name : String
  parameters : List String
  body : Definition.Body

namespace Definition

def Body.text : Body → List String
  | .result e => ["=>", "  " ++ e.text ++ ";"]
  | .switch x cases =>
      ["=> \x7b", "  switch (" ++ x ++ ") \x7b"] ++
        cases.map (fun entry => "    case " ++ quote entry.1 ++ ": return " ++ entry.2.text ++ ";") ++
        ["    default: throw new Error(`unknown " ++ x ++ " $\x7b" ++ x ++ "\x7d`);", "  \x7d", "\x7d;"]
  | .reduce x step seed =>
      ["=>", "  " ++ x ++ ".reduce(", "    (acc, c) => (" ++ step.text ++ "),", "    " ++ seed.text ++ ",",
        "  );"]

def text (d : Definition) : List String :=
  match d.body.text with
  | [] => []
  | first :: others =>
      ("const " ++ d.name ++ " = (" ++ listed d.parameters ++ ") " ++ first) :: others

def Body.eval (locals : Locals) : Body → Option Datum
  | .result e => e.eval write functions locals
  | .switch x cases =>
      match locals.lookup x with
      | some (.string s) => (cases.lookup s).bind (Expression.eval write functions locals)
      | _ => none
  | .reduce x step seed =>
      match locals.lookup x, seed.eval write functions locals with
      | some (.array items), some first =>
          items.foldlM (fun acc c =>
            step.eval write functions (("acc", acc) :: ("c", c) :: locals)) first
      | _, _ => none

def define (d : Definition) : Functions := fun f arguments =>
  if f = d.name then d.body.eval write functions (d.parameters.zip arguments) else functions f arguments

end Definition

namespace Helper

def left : Operand := .name "left"
def right : Operand := .name "right"

def sameKind : Definition where
  name := "sameKind"
  parameters := ["left", "right"]
  body := .result (.and (.compare .strictEq (.typeOf (.operand left)) (.typeOf (.operand right)))
    (.includes ["number", "string", "boolean"] (.typeOf (.operand left))))

def equal : Definition where
  name := "equal"
  parameters := ["left", "right"]
  body := .result (.choose (.call "sameKind" [left, right])
    (.compare .strictEq (.operand left) (.operand right))
    (.compare .strictEq (.stringify (.operand left)) (.stringify (.operand right))))

def arm (c : Action.Comparison) : Expression :=
  match c with
  | .lt | .gt | .le | .ge =>
      .and (.call "sameKind" [left, right]) (.compare c (.operand left) (.operand right))
  | .eq | .strictEq => .call "equal" [left, right]
  | .ne | .strictNe => .not (.call "equal" [left, right])

def compare : Definition where
  name := "compare"
  parameters := ["left", "operator", "right"]
  body := .switch "operator" (Action.Comparison.all.map fun c => (c.symbol, arm c))

def joins (x : Operand) : Expression := .compare .strictEq (.operand x) (.string "&&")

def soFar : Expression := .operand (.name "acc")

def next : Expression :=
  .call "compare" [.name "value", .member "c" "operator", .member "c" "value"]

def step : Expression := .choose (joins (.member "c" "type")) (.and soFar next) (.or soFar next)

def seed : Expression := .and (.nonempty "conditions") (joins (.firstMember "conditions" "type"))

def checkSignCondition : Definition where
  name := "checkSignCondition"
  parameters := ["value", "conditions"]
  body := .reduce "conditions" step seed

end Helper

def helpers : List Definition :=
  [Helper.sameKind, Helper.equal, Helper.compare, Helper.checkSignCondition]

theorem lines_suffix {first others : List String} (suffix : first <:+ others) :
    lines first <:+ lines others := by
  obtain ⟨before, rfl⟩ := suffix
  exact ⟨lines before, List.flatMap_append.symm⟩

theorem helpers_suffix_prelude : lines (helpers.flatMap Definition.text) <:+ prelude := by
  refine lines_suffix ?_
  decide +kernel

def run (f : String) (arguments : List Datum) : Option Datum :=
  helpers.foldl (Definition.define write) (fun _ _ => none) f arguments

end Tripwire.Script
