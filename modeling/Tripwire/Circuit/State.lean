import Tripwire.Circuit.Note
import Tripwire.Log.Ring
import Tripwire.Script.Render

/-!
# The state of a circuit

What is registered, what is satisfied and counted, the log, and the flag that asks the circuit to
stop. Every change comes with the instant at which it happens.
-/
namespace Tripwire

namespace Circuit

structure Watcher where
  key : Nat
  description : String
  deriving DecidableEq, Repr

inductive Status where
  | idle
  | armed
  | running
  | halted
  deriving DecidableEq, Repr

def Status.text : Status → String
  | .idle => "idle"
  | .armed => "armed"
  | .running => "running"
  | .halted => "halted"

structure Options where
  publicKey? : Option String
  authSig : Value
  params : List (String × Value)
  deriving DecidableEq, Repr

structure Session where
  publicKey : String
  authSig : Value
  params : List (String × Value)
  deriving DecidableEq, Repr

end Circuit

structure Circuit where
  watchers : List Circuit.Watcher
  logic? : Option Condition.Logic
  gate : Run.Gate
  script : Script
  satisfied : Condition.Satisfied
  counters : Run.Counters
  log : Log.Ring Circuit.Noted
  status : Circuit.Status
  session? : Option Circuit.Session
  /-- Whether the cycle in progress has had its run. -/
  fired : Bool
  failure? : Option Circuit.RunFailure
  stopped : Bool

namespace Circuit

def new : Circuit where
  watchers := []
  logic? := none
  gate := none
  script := .empty
  satisfied := .empty
  counters := .zero
  log := .standard
  status := .idle
  session? := none
  fired := false
  failure? := none
  stopped := false

instance : Inhabited Circuit := ⟨new⟩

def write (c : Circuit) (now : Time.Instant) (note : Note) : Circuit :=
  { c with log := c.log.append ⟨note, now⟩ }

def refresh (c : Circuit) : Circuit :=
  match c.status with
  | .idle | .armed =>
      { c with status := if c.watchers.isEmpty || c.script.isEmpty then .idle else .armed }
  | .running | .halted => c

def conditionIds (c : Circuit) : List Nat := Condition.idsOf c.watchers.length

/-- Replaces the conditions. What was satisfied before is forgotten. -/
def setConditions (c : Circuit) (watchers : List Watcher) : Circuit :=
  refresh { c with watchers := watchers, satisfied := .empty }

def setLogic (c : Circuit) (logic : Condition.Logic) : Circuit := { c with logic? := some logic }

def setConstraints (c : Circuit) (constraints : Run.Constraints) : Circuit :=
  { c with gate := some constraints }

def setActions (c : Circuit) (now : Time.Instant) (actions : List Action) :
    Circuit × Except Fault Unit :=
  match c.script.compile actions with
  | .ok compiled => (refresh { c with script := compiled.script }, .ok ())
  | .error fault => (c.write now (.compileFailed fault), .error fault)

def stop (c : Circuit) : Circuit := { c with stopped := true }

def entries (c : Circuit) (category? : Option Log.Category) : List Log.Entry :=
  (c.log.toList.map Noted.entry).filter fun e => category?.all (· = e.category)

def interval? (c : Circuit) : Option Time.Span := c.logic?.bind (·.interval?)

def evaluate (c : Circuit) (now : Time.Instant) : Circuit × Condition.Outcome :=
  let policy? := c.logic?.map (·.policy)
  let total := c.watchers.length
  let outcome := Condition.decideOutcome policy? c.satisfied total
  (c.write now (.evaluated policy? outcome c.satisfied.ids total), outcome)

def claim (c : Circuit) (now : Time.Instant) : Circuit × Bool :=
  let (c, outcome) := c.evaluate now
  if outcome = .fire && !c.fired then
    ({ c with
      fired := true
      counters := { c.counters with executed := c.counters.executed + 1 } }, true)
  else (c, false)

def recordMatch (c : Circuit) (now : Time.Instant) (id : Nat) : Circuit :=
  let satisfied := c.satisfied.insert id
  { c with satisfied := satisfied }.write now (.matched id satisfied.ids)

def recordUnmatch (c : Circuit) (now : Time.Instant) (id : Nat) : Circuit :=
  let satisfied := c.satisfied.erase id
  { c with satisfied := satisfied }.write now (.unmatched id satisfied.ids)

def startFault? (c : Circuit) : Option Fault :=
  if c.watchers.isEmpty then some .noConditions
  else if c.script.isEmpty then some .noActions
  else match c.status with
    | .running => some .alreadyRunning
    | .halted => some .halted
    | .idle | .armed => none

inductive Beginning where
  | refused (fault : Fault)
  | over
  | running
  deriving DecidableEq, Repr

/-- Begins a start. A circuit that was asked to stop, or that has exhausted its constraints, halts
without running. -/
def begin (c : Circuit) (now : Time.Instant) : Circuit × Beginning :=
  match c.startFault? with
  | some fault => (c.write now (.startRefused fault), .refused fault)
  | none =>
      if c.stopped then
        ({ c.write now (.stoppedBeforeStart c.counters) with status := .halted }, .over)
      else
        match c.gate.exhausted? c.counters now with
        | some bound =>
            ({ c.write now (.exhaustedBeforeStart bound c.counters) with status := .halted }, .over)
        | none => ({ c with status := .running }, .running)

def halt (c : Circuit) : Circuit := { c with status := .halted }

def requestParams (script : Script) (session : Session) : List (String × Value) :=
  Value.sortFields (script.params ++ session.params ++ [("publicKey", .str session.publicKey)])

def requestOf (script : Script) (session : Session) : Request :=
  let code := script.render
  { code := code
    contentHash := Script.hashOf code
    authSig := session.authSig
    params := requestParams script session }

def request? (c : Circuit) : Option Request := c.session?.map (requestOf c.script)

/-- Takes the answer of a run that was requested for a content hash. A failure stops the circuit, and
so do constraints that are exhausted now. -/
def finishRun (c : Circuit) (now : Time.Instant) (contentHash : String)
    (answer : Except RunFailure Value) : Circuit :=
  match answer with
  | .ok response =>
      let c := { c with counters := { c.counters with completed := c.counters.completed + 1 } }
      let c := c.write now (.runCompleted contentHash response)
      match c.gate.exhausted? c.counters now with
      | some bound => (c.write now (.exhausted bound c.counters)).stop
      | none => c
  | .error failure =>
      let c := c.write now (.runFailed contentHash failure)
      { c with failure? := c.failure?.or (some failure), stopped := true }

end Circuit
end Tripwire
