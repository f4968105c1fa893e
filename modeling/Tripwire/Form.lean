import Tripwire.Value.Basic

/-!
# Forms

A form is how a record, a list or a name is written as a value. A record is a map by field names,
of which unknown ones are ignored, or a list of its fields in order. A field that is optional may be
missing or null; one with a default may only be missing. A name is a text, or the only field of a map
whose value says nothing more.
-/
namespace Tripwire.Form

structure Style where
  /-- Whether a list may go on after the last field of the record that it writes. -/
  surplus : Bool
  /-- What may stand as the value beside a name in a map. -/
  nothing : Value → Bool
  /-- How a value is taken over where the form leaves it free. -/
  free : Value → Value

def json : Style := ⟨false, fun v => v = .null, id⟩

def Style.tagged (style : Style) : Style :=
  { style with surplus := false, nothing := fun v => v = .null || v = .map [] }

def record? (style : Style) (names : List String) : Value → Option (List (String × Value))
  | .map fields => some fields
  | .list items =>
      if items.length ≤ names.length || style.surplus then some (names.zip items) else none
  | _ => none

def required {α : Type} (fields : List (String × Value)) (name : String)
    (read : Value → Option α) : Option α :=
  (fields.lookup name).bind read

def optional {α : Type} (fields : List (String × Value)) (name : String)
    (read : Value → Option α) : Option (Option α) :=
  match fields.lookup name with
  | none | some .null => some none
  | some v => (read v).map some

def defaulted {α : Type} (fields : List (String × Value)) (name : String) (default : α)
    (read : Value → Option α) : Option α :=
  match fields.lookup name with
  | none => some default
  | some v => read v

def text : Value → Option String := Value.str?

def bool : Value → Option Bool
  | .bool b => some b
  | _ => none

def natural (limit : Nat) (v : Value) : Option Nat :=
  match v.nat? with
  | some n => if n ≤ limit then some n else none
  | none => none

def u8 : Value → Option Nat := natural (Nat.pow 2 8 - 1)
def u16 : Value → Option Nat := natural (Nat.pow 2 16 - 1)
def u32 : Value → Option Nat := natural (Nat.pow 2 32 - 1)
def u64 : Value → Option Nat := natural (Nat.pow 2 64 - 1)

def list {α : Type} (read : Value → Option α) : Value → Option (List α)
  | .list items => items.mapM read
  | _ => none

def name {α : Type} (style : Style) (names : List (String × α)) : Value → Option α
  | .str s => names.lookup s
  | .map [(s, v)] => if style.nothing v then names.lookup s else none
  | _ => none

def field? {α : Type} (name : String) (write : α → Value) : Option α → List (String × Value)
  | none => []
  | some a => [(name, write a)]

end Tripwire.Form
