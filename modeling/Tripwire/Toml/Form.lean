import Tripwire.Form

/-!
# Forms in TOML

A list that writes a record may go on after the last field, and an empty table or array says nothing
more beside a name. A value that is left free holds null for every number that is not finite.
-/
namespace Tripwire.Toml

mutual

def finiteValue : Value → Value
  | .float x => if x.isFinite then .float x else .null
  | .list items => .list (finiteItems items)
  | .map fields => .map (finiteFields fields)
  | v => v

def finiteItems : List Value → List Value
  | [] => []
  | v :: rest => finiteValue v :: finiteItems rest

def finiteFields : List (String × Value) → List (String × Value)
  | [] => []
  | (name, v) :: rest => (name, finiteValue v) :: finiteFields rest

end

def style : Form.Style := ⟨true, fun v => v = .map [] || v = .list [], finiteValue⟩

end Tripwire.Toml
