import Tripwire.Circuit.State

/-!
# The life of a circuit

One start of a circuit gets through at most. It opens a session, and then goes through cycles: every
condition is observed, the runs that fire meanwhile are executed, and at the end the logic is evaluated
once more. Between two cycles lies the interval of the logic in force.

What happens is a sequence of events, each of which the circuit's environment may bring about at a point
where the circuit waits: calls of its operations, steps of observations, answers of the issuer and the
executor, and its own going on. `step?` says which events are possible and what they do.
-/
namespace Tripwire.Circuit

inductive StartError where
  | configuration (fault : Fault)
  | identity (refusal : Signer.Refusal)
  | execution (failure : RunFailure)
  deriving DecidableEq, Repr

namespace StartError

def message : StartError → String
  | .configuration fault => fault.message
  | .identity refusal => refusal.message
  | .execution failure => "execute script: " ++ failure.message

def summary : StartError → String
  | .configuration _ => "configuration error"
  | .identity _ => "signing identity unavailable"
  | .execution _ => "action run failed"

end StartError

structure Observing where
  index : Nat
  watcher : Watcher
  deriving DecidableEq, Repr

structure Cycle where
  /-- The time after which an observation is cut off. -/
  limit? : Option Time.Span
  observing : List Observing
  /-- The runs that fired and were not yet handed to the executor. -/
  queued : Nat
  /-- The content hash of the run that the executor works on. -/
  inFlight? : Option String
  /-- Whether the evaluation at the end of the cycle is over. -/
  closed : Bool
  deriving DecidableEq, Repr

namespace Cycle

def drained (cycle : Cycle) : Bool := cycle.queued = 0 && cycle.inFlight?.isNone

def observes (cycle : Cycle) (index : Nat) : Bool := cycle.observing.any (·.index = index)

def drop (cycle : Cycle) (index : Nat) : Cycle :=
  { cycle with observing := cycle.observing.filter (·.index ≠ index) }

end Cycle

inductive Progress where
  /-- No start got through yet. -/
  | unstarted
  /-- The identity for a content hash is being issued. -/
  | opening (contentHash : String) (options : Options)
  /-- Before a cycle, after a pause if there is one. -/
  | between (pause? : Option Time.Span)
  | cycling (cycle : Cycle)
  | ended (result : Except StartError PUnit)

structure Process where
  circuit : Circuit
  progress : Progress

inductive Event where
  | setConditions (watchers : List Watcher)
  | setLogic (logic : Condition.Logic)
  | setConstraints (constraints : Run.Constraints)
  | setActions (actions : List Action)
  | stop
  | start (options : Options)
  /-- The issuer answers. -/
  | issued (answer : Except Signer.Refusal Signer.Identity)
  /-- The pause before a cycle is over. -/
  | next
  /-- An observation reports that its condition begins to hold. -/
  | matched (index : Nat)
  /-- An observation reports that its condition ceases to hold. -/
  | unmatched (index : Nat)
  /-- An observation ends, perhaps with an error. -/
  | settled (index : Nat) (error? : Option String)
  /-- An observation has used up its time. -/
  | cutOff (index : Nat)
  /-- All observations are given up, because the circuit is to stop. -/
  | abandon
  /-- A run is handed to the executor. -/
  | call
  /-- The executor answers. -/
  | answered (answer : Except RunFailure Value)
  /-- Observations and runs are over, and the logic is evaluated for the cycle. -/
  | close
  /-- The cycle ends. -/
  | leave

namespace Process

def new : Process := ⟨.new, .unstarted⟩

def finish (c : Circuit) (result : Except StartError PUnit) : Process := ⟨c.halt, .ended result⟩

def openSession (c : Circuit) (now : Time.Instant) (options : Options) (key : String) : Process :=
  match Signer.checkPublicKey key with
  | .ok () =>
      ⟨{ c with session? := some ⟨key, options.authSig, options.params⟩ }, .between none⟩
  | .error fault => finish (c.write now (.keyRefused fault)) (.error (.configuration fault))

/-- Starts a circuit. A start that is refused leaves the progress of another one as it is. -/
def start (p : Process) (now : Time.Instant) (options : Options) : Process :=
  match p.circuit.begin now with
  | (c, .refused _) => { p with circuit := c }
  | (c, .over) => ⟨c, .ended (.ok ())⟩
  | (c, .running) =>
      match options.publicKey? with
      | some key => openSession c now options key
      | none => ⟨c, .opening c.script.contentHash options⟩

def beginCycle (c : Circuit) : Process :=
  if c.stopped then finish c (.ok ())
  else
    { circuit := { c with fired := false }
      progress := .cycling {
        limit? := c.interval?
        observing := (c.watchers.zipIdx).map fun (watcher, index) => ⟨index, watcher⟩
        queued := 0
        inFlight? := none
        closed := false } }

def evaluateReport (c : Circuit) (now : Time.Instant) (cycle : Cycle) : Process :=
  let (c, fires) := c.claim now
  ⟨c, .cycling (if fires then { cycle with queued := cycle.queued + 1 } else cycle)⟩

def closeCycle (c : Circuit) (now : Time.Instant) (cycle : Cycle) : Process :=
  if c.stopped then ⟨c, .cycling { cycle with closed := true }⟩
  else
    let (c, fires) := c.claim now
    ⟨c, .cycling { cycle with closed := true, queued := if fires then 1 else 0 }⟩

def leaveCycle (c : Circuit) : Process :=
  match c.failure? with
  | some failure => finish { c with failure? := none } (.error (.execution failure))
  | none => if c.stopped then finish c (.ok ()) else ⟨c, .between c.interval?⟩

def cycleStep? (c : Circuit) (cycle : Cycle) (now : Time.Instant) : Event → Option Process
  | .matched index =>
      if cycle.observes index then
        some (evaluateReport (c.recordMatch now (Condition.idOf index)) now cycle)
      else none
  | .unmatched index =>
      if cycle.observes index then
        some (evaluateReport (c.recordUnmatch now (Condition.idOf index)) now cycle)
      else none
  | .settled index error? =>
      match cycle.observing.find? (·.index = index) with
      | none => none
      | some o =>
          let c := match error? with
            | none => c
            | some e => c.write now
                (.observationFailed (Condition.idOf index) o.watcher.description e)
          some ⟨c, .cycling (cycle.drop index)⟩
  | .cutOff index =>
      match cycle.limit? with
      | none => none
      | some limit =>
          if cycle.observes index then
            some ⟨c.write now (.timedOut (Condition.idOf index) limit.toMillis),
              .cycling (cycle.drop index)⟩
          else none
  | .abandon => if c.stopped then some ⟨c, .cycling { cycle with observing := [] }⟩ else none
  | .call =>
      match cycle.inFlight?, c.request? with
      | none, some request =>
          if 0 < cycle.queued then
            some ⟨c, .cycling { cycle with
              queued := cycle.queued - 1
              inFlight? := some request.contentHash }⟩
          else none
      | _, _ => none
  | .answered answer =>
      cycle.inFlight?.map fun contentHash =>
        ⟨c.finishRun now contentHash answer, .cycling { cycle with inFlight? := none }⟩
  | .close =>
      if cycle.observing.isEmpty && cycle.drained && !cycle.closed then
        some (closeCycle c now cycle)
      else none
  | .leave => if cycle.closed && cycle.drained then some (leaveCycle c) else none
  | _ => none

/-- What an event does at an instant, if it is possible. The operations always are. -/
def step? (p : Process) (now : Time.Instant) (event : Event) : Option Process :=
  match event with
  | .setConditions watchers => some { p with circuit := p.circuit.setConditions watchers }
  | .setLogic logic => some { p with circuit := p.circuit.setLogic logic }
  | .setConstraints constraints =>
      some { p with circuit := p.circuit.setConstraints constraints }
  | .setActions actions => some { p with circuit := (p.circuit.setActions now actions).1 }
  | .stop => some { p with circuit := p.circuit.stop }
  | .start options => some (p.start now options)
  | event =>
      match p.progress, event with
      | .opening contentHash options, .issued answer =>
          match answer with
          | .ok identity =>
              some (openSession (p.circuit.write now (.identityIssued identity)) now options
                identity.publicKey)
          | .error refusal =>
              some (finish (p.circuit.write now (.identityRefused refusal contentHash))
                (.error (.identity refusal)))
      | .between _, .next => some (beginCycle p.circuit)
      | .cycling cycle, event => cycleStep? p.circuit cycle now event
      | _, _ => none

def request? (p : Process) : Option Request := p.circuit.request?

end Process
end Tripwire.Circuit
