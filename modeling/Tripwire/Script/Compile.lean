import Tripwire.Contract.Transaction
import Tripwire.Script.Redirect

/-!
# Scripts

A script has one routine for each action, named by its kind and priority, and a driver that runs them
all. Compiling adds routines for new actions, in the order of their priorities, to a script whose
routines all stay as they are.
-/
namespace Tripwire

namespace Script

inductive Body where
  | custom (code : String)
  | fetch (url : String) (authenticated : Bool) (responsePath : String)
      (signConditions : List Action.SignCondition) (toSign : List Nat)
  | contract (transaction : Contract.Transaction)
  deriving DecidableEq, Repr

structure Routine where
  name : String
  kind : Action.Kind
  priority : Nat
  body : Body
  deriving DecidableEq, Repr

end Script

/-- A compiled script. The keys of its fetches are kept by routine name, in the order of the names;
they are given to the executor beside the text. -/
structure Script where
  routines : List Script.Routine
  driver : List String
  apiKeys : List (String × String)
  deriving DecidableEq, Repr

namespace Script

def empty : Script := ⟨[], [], []⟩

instance : Inhabited Script := ⟨empty⟩

def isEmpty (s : Script) : Bool := s.routines.isEmpty

def routine? (s : Script) (name : String) : Option Routine :=
  s.routines.find? fun r => r.name = name

def insertKey (name key : String) : List (String × String) → List (String × String)
  | [] => [(name, key)]
  | (n, k) :: rest =>
      if name < n then (name, key) :: (n, k) :: rest
      else if name = n then (name, key) :: rest
      else (n, k) :: insertKey name key rest

def apiKeysParam : String := "apiKeys"

def params (s : Script) : List (String × Value) :=
  if s.apiKeys.isEmpty then []
  else [(apiKeysParam, .map (s.apiKeys.map fun (name, key) => (name, .str key)))]

/-- The routine of an action. Only a contract call can fail to have one. -/
def Routine.ofAction (action : Action) : Except Fault Routine :=
  let name := action.unitName
  let routine (body : Body) : Routine := ⟨name, action.kind, action.priority, body⟩
  match action with
  | .custom a => .ok (routine (.custom (redirect name a.code)))
  | .fetch a =>
      .ok (routine (.fetch a.url a.apiKey?.isSome a.responsePath a.signConditions a.toSign))
  | .contract a => (Contract.Transaction.ofAction a).map fun t => routine (.contract t)

def addKey (keys : List (String × String)) (action : Action) : List (String × String) :=
  match action with
  | .fetch a =>
      match a.apiKey? with
      | some key => insertKey action.unitName key keys
      | none => keys
  | _ => keys

structure Compiled where
  script : Script
  added : List String
  deriving DecidableEq, Repr

/-- Adds an action to what is being compiled on top of a script. An action that the script already
has is skipped; one of another kind must not take the priority of an old routine. -/
def addAction (previous : Script) (compiled : Compiled) (action : Action) :
    Except Fault Compiled :=
  match previous.routines.find? fun r => r.priority = action.priority with
  | some old =>
      if old.name = action.unitName then .ok compiled
      else .error (.duplicatePriority action.priority)
  | none =>
      (Routine.ofAction action).map fun routine =>
        { script := { compiled.script with
            routines := compiled.script.routines ++ [routine]
            apiKeys := addKey compiled.script.apiKeys action }
          added := compiled.added ++ [routine.name] }

def addActions (previous : Script) : Compiled → List Action → Except Fault Compiled
  | compiled, [] => .ok compiled
  | compiled, action :: rest =>
      match addAction previous compiled action with
      | .ok compiled => addActions previous compiled rest
      | .error fault => .error fault

def sharedPriority? : List Action → Option Nat
  | a :: b :: rest =>
      if a.priority = b.priority then some a.priority else sharedPriority? (b :: rest)
  | _ => none

def sortActions (actions : List Action) : List Action :=
  actions.mergeSort fun a b => a.priority ≤ b.priority

def withDriver (s : Script) : Script := { s with driver := s.routines.map Routine.name }

def compile (previous : Script) (actions : List Action) : Except Fault Compiled :=
  let sorted := sortActions actions
  match sharedPriority? sorted with
  | some priority => .error (.duplicatePriority priority)
  | none =>
      (addActions previous ⟨previous, []⟩ sorted).map fun compiled =>
        { compiled with script := compiled.script.withDriver }

end Script
end Tripwire
