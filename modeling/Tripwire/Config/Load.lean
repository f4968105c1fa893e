import Tripwire.Config.Form
import Tripwire.Text.Blank
import Tripwire.Text.Utf8
import Tripwire.Toml.Document
import Tripwire.Toml.Form

/-!
# Loading a configuration

A configuration is read from a file in TOML, which need not be there. Variables of the environment go
over the file, and what comes of both has to be valid.
-/
namespace Tripwire.Config

inductive File where
  | missing
  | unreadable
  | bytes (bytes : List UInt8)
  deriving DecidableEq, Repr

structure Environment where
  bind? : Option String
  filter? : Option String
  /-- The filter that programs share, which goes over the daemon's own. -/
  sharedFilter? : Option String
  deriving DecidableEq, Repr

inductive Fault where
  | unreadable
  | malformed
  | portZero
  | emptyName (observations : List Rehearsal.Observation)
  | unknownTarget (target conditions : Nat)
  deriving DecidableEq, Repr

def Fault.invalid (reason : String) : String := "invalid configuration: " ++ reason

def Fault.message : Fault → String
  | .unreadable => "failed to read config file"
  | .malformed => "failed to parse config file"
  | .portZero => invalid "port must be non-zero"
  | .emptyName observations =>
      invalid ("condition with pattern [" ++
        String.intercalate ", " (observations.map (·.label)) ++ "] has an empty name")
  | .unknownTarget target conditions =>
      invalid ("target condition " ++ toString target ++ " does not exist (" ++
        toString conditions ++ " conditions configured)")

def ofFile : File → Except Fault Config
  | .missing => .ok standard
  | .unreadable => .error .unreadable
  | .bytes bytes =>
      match Text.Utf8.decode? bytes with
      | none => .error .unreadable
      | some text =>
          match (Toml.read? text).bind (read? Toml.style) with
          | none => .error .malformed
          | some c => .ok c

def splitLast? (mark : Char) (text : List Char) : Option (List Char × List Char) :=
  match text.reverse.dropWhile (· ≠ mark) with
  | [] => none
  | _ :: before => some (before.reverse, (text.reverse.takeWhile (· ≠ mark)).reverse)

def portLimit : Nat := Nat.pow 2 16 - 1

/-- Takes host and port from a text in which the last colon parts them. A port that is no numeral is
left as it was, and a text without a colon says nothing. -/
def overrideBind (c : Config) (bind : String) : Config :=
  match splitLast? ':' bind.toList with
  | none => c
  | some (host, port) =>
      { c with
        host := String.ofList host
        port := (Text.Numeral.read portLimit port).toOption.getD c.port }

def override (c : Config) (env : Environment) : Config :=
  let c := env.bind?.elim c c.overrideBind
  { c with filter := (env.sharedFilter?.or env.filter?).getD c.filter }

def fault? (c : Config) : Option Fault :=
  if c.port = 0 then some .portZero
  else
    match c.conditions.find? fun d => (Text.trim d.name.toList).isEmpty with
    | some d => some (.emptyName d.observations)
    | none =>
        match c.logic? with
        | some ⟨.target id, _⟩ =>
            if 1 ≤ id ∧ id ≤ c.conditions.length then none
            else some (.unknownTarget id c.conditions.length)
        | _ => none

def load (file : File) (env : Environment) : Except Fault Config := do
  let c := (← ofFile file).override env
  match c.fault? with
  | some fault => throw fault
  | none => pure c

end Tripwire.Config
