import Tripwire.Action.Basic
import Tripwire.Circuit.State
import Tripwire.Rehearsal.Pattern

/-!
# Configurations

What a daemon is told: where it listens, what it logs, and the circuit that it runs, with conditions
that follow patterns. Everything has a default.
-/
namespace Tripwire

structure Config.Condition where
  name : String
  observations : List Rehearsal.Observation
  latencyMillis : Nat
  deriving DecidableEq, Repr

structure Config where
  host : String
  port : Nat
  filter : String
  publicKey? : Option String
  authSig : Value
  params : List (String × Value)
  logic? : Option Tripwire.Condition.Logic
  constraints? : Option Run.Constraints
  conditions : List Config.Condition
  actions : List Action
  deriving DecidableEq, Repr

namespace Config

def standard : Config where
  host := "0.0.0.0"
  port := 3000
  filter := "circuitd=info,circuit_app=info,circuit_domain=info,tower_http=debug"
  publicKey? := none
  authSig := .null
  params := []
  logic? := none
  constraints? := none
  conditions := []
  actions := []

def bindAddress (c : Config) : String := c.host ++ ":" ++ toString c.port

def watchers (c : Config) : List Rehearsal.Pattern :=
  c.conditions.map fun d => ⟨d.name, d.observations, d.latencyMillis, 0⟩

def options (c : Config) : Circuit.Options := ⟨c.publicKey?, c.authSig, c.params⟩

end Config
end Tripwire
