import Tripwire.Value.Basic

/-!
# Tables of TOML

Tables come to be by a header, by standing on the way of a header, or by a dotted key. How a table came
to be says what may still be added to it: a header opens a table once, and dotted keys add to tables
that dotted keys have made.
-/
namespace Tripwire.Toml

inductive Origin where
  /-- By a header of its own; so also the document as a whole. -/
  | header
  /-- On the way of a header. -/
  | passage
  | dottedKey
  deriving DecidableEq, Repr

inductive Node where
  | value (v : Value)
  | table (origin : Origin) (fields : List (String × Node))
  /-- The tables of one header in double brackets. -/
  | tables (items : List (List (String × Node)))

abbrev Fields : Type := List (String × Node)

namespace Fields

def replace (key : String) (node : Node) (fields : Fields) : Fields :=
  fields.map fun (k, n) => if k = key then (k, node) else (k, n)

/-- Changes the table at the end of a path. Tables that are missing on the way are made, and of the
tables of a header in double brackets the last one is entered. A dotted key enters no table that has a
header of its own. -/
def within (dotted : Bool) (change : Origin → Fields → Option Fields) :
    List String → Origin → Fields → Option Fields
  | [], origin, fields => change origin fields
  | key :: path, _, fields =>
      match fields.lookup key with
      | none => do
          let origin : Origin := if dotted then .dottedKey else .passage
          let inner ← within dotted change path origin []
          pure (fields ++ [(key, .table origin inner)])
      | some (.table origin inner) =>
          if dotted && origin = .header then none
          else do
            let inner ← within dotted change path origin inner
            pure (fields.replace key (.table origin inner))
      | some (.tables items) => do
          let inner ← within dotted change path .header (← items.getLast?)
          pure (fields.replace key (.tables (items.dropLast ++ [inner])))
      | some (.value _) => none

/-- Puts a value under a key, which has to be free. A dotted key puts it into a table that dotted keys
have made, any other into a table that has a header. -/
def put (path : List String) (key : String) (value : Value) (origin : Origin) (fields : Fields) :
    Option Fields :=
  within true (fun origin fields =>
    if decide (origin = .dottedKey) == path.isEmpty || (fields.lookup key).isSome then none
    else some (fields ++ [(key, .value value)])) path origin fields

def openTable (path : List String) (key : String) (fields : Fields) : Option Fields :=
  within false (fun _ fields =>
    match fields.lookup key with
    | none => some (fields ++ [(key, .table .header [])])
    | some (.table .passage inner) => some (fields.replace key (.table .header inner))
    | some _ => none) path .header fields

def openItem (path : List String) (key : String) (fields : Fields) : Option Fields :=
  within false (fun _ fields =>
    match fields.lookup key with
    | none => some (fields ++ [(key, .tables [[]])])
    | some (.tables items) => some (fields.replace key (.tables (items ++ [[]])))
    | some _ => none) path .header fields

end Fields

mutual

def Node.toValue : Node → Value
  | .value v => v
  | .table _ fields => .object (fieldValues fields)
  | .tables items => .list (itemValues items)

def fieldValues : List (String × Node) → List (String × Value)
  | [] => []
  | (key, node) :: rest => (key, node.toValue) :: fieldValues rest

def itemValues : List (List (String × Node)) → List Value
  | [] => []
  | fields :: rest => .object (fieldValues fields) :: itemValues rest

end

def Fields.toValue (fields : Fields) : Value := .object (fieldValues fields)

end Tripwire.Toml
