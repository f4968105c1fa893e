import Tripwire.Rehearsal.Plan

/-!
# The bench

A bench runs a circuit by a plan under a virtual clock. Computing takes no time; when everything waits,
the clock goes on to the next instant at which something is due. Within an instant observations go
first, in the order of their conditions, then a stop abandons those that still wait, then runs are
handed to the executor and answered, and then the cycle goes on.
-/
namespace Tripwire.Rehearsal

inductive WatcherState where
  | pattern (pattern : Pattern)
  | steps (name description : String) (cycles : List (List WatchStep)) (observed : Nat)

def WatcherState.ofPlan : WatcherPlan → WatcherState
  | .pattern p => .pattern p
  | .steps name description cycles => .steps name description cycles 0

def WatcherState.describe : WatcherState → String
  | .pattern p => p.describe
  | .steps _ description _ _ => description

inductive ExecutorState where
  | echo (echo : Echo)
  | calls (calls : List CallPlan) (made : Nat)

def ExecutorState.ofPlan : ExecutorPlan → ExecutorState
  | .echo failFrom? => .echo (.start failFrom?)
  | .calls plans => .calls plans 0

inductive Waiting where
  | fresh
  /-- The latency of a pattern. -/
  | latency (wake : Nat)
  /-- A sleep, with the steps after it. -/
  | asleep (name : String) (wake : Nat) (rest : List WatchStep)

def Waiting.wake? : Waiting → Option Nat
  | .fresh => none
  | .latency wake => some wake
  | .asleep _ wake _ => some wake

structure Open where
  index : Nat
  key : Nat
  waiting : Waiting

structure Flight where
  due : Nat
  plan : CallPlan

structure Bench where
  process : Circuit.Process
  /-- The virtual time in milliseconds. -/
  clock : Nat
  watchers : Array WatcherState
  executor : ExecutorState
  issuer : IssuerPlan
  opened : List Open
  deadline? : Option Nat
  flight? : Option Flight
  pauseEnd? : Option Nat
  /-- Whether the circuit lets others go first before its next cycle. -/
  yielding : Bool
  /-- What was seen, the latest first. -/
  seen : List Trace

namespace Bench

def now : Time.Instant := ⟨1767225600, 0⟩

def new (executor : ExecutorPlan) (issuer : IssuerPlan) : Bench where
  process := .new
  clock := 0
  watchers := #[]
  executor := .ofPlan executor
  issuer := issuer
  opened := []
  deadline? := none
  flight? := none
  pauseEnd? := none
  yielding := false
  seen := []

def circuit (b : Bench) : Circuit := b.process.circuit

def wakeAfter (b : Bench) (millis : Nat) : Nat := b.clock + sleepTime millis

def see (b : Bench) (t : Trace) : Bench := { b with seen := t :: b.seen }

def happen (b : Bench) (event : Circuit.Event) : Bench :=
  { b with process := (b.process.step? now event).getD b.process }

def snapshot (b : Bench) : Snapshot :=
  ⟨b.circuit.status, b.circuit.counters, b.circuit.satisfied.ids, b.circuit.log.size⟩

def register (b : Bench) (plans : List WatcherPlan) : Bench :=
  let states := plans.map WatcherState.ofPlan
  let watchers := states.zipIdx.map fun (state, i) =>
    (⟨b.watchers.size + i, state.describe⟩ : Circuit.Watcher)
  { b with watchers := b.watchers ++ states.toArray }.happen (.setConditions watchers)

def act (b : Bench) : Act → Bench × Outcome
  | .misread misreading => (b, .misread misreading)
  | .setConditions plans =>
      let b := b.register plans
      (b, .ids b.circuit.conditionIds)
  | .setLogic logic => (b.happen (.setLogic logic), .done)
  | .setConstraints constraints => (b.happen (.setConstraints constraints), .done)
  | .setActions actions =>
      let (circuit, result) := b.circuit.setActions now actions
      let outcome := match result with
        | .ok () => .done
        | .error fault => .refused fault
      ({ b with process := { b.process with circuit := circuit } }, outcome)
  | .stop => (b.happen .stop, .done)
  | .state => (b, .state b.snapshot)
  | .logs category? => (b, .entries (b.circuit.entries category?))
  | .script render => (b, .script b.circuit.script render)

def actAs (b : Bench) (who : String) (a : Act) : Bench :=
  let (b, outcome) := b.act a
  b.see (.did who outcome)

def runSteps (index : Nat) (name : String) : Bench → List WatchStep → Bench × Option Waiting
  | b, [] => (b.happen (.settled index none), none)
  | b, .matched :: rest => runSteps index name (b.happen (.matched index)) rest
  | b, .unmatched :: rest => runSteps index name (b.happen (.unmatched index)) rest
  | b, .fail error :: _ => (b.happen (.settled index (some error)), none)
  | b, .act a :: rest => runSteps index name (b.actAs name a) rest
  | b, .sleep millis :: rest =>
      if millis = 0 then runSteps index name (b.see (.woke name)) rest
      else (b, some (.asleep name (b.wakeAfter millis) rest))

def report (b : Bench) (index key : Nat) (p : Pattern) : Bench :=
  let b := { b with watchers := b.watchers.setIfInBounds key (.pattern p.advance) }
  match p.current with
  | .holds => (b.happen (.matched index)).happen (.settled index none)
  | .holdsNot => (b.happen (.unmatched index)).happen (.settled index none)
  | .nothing => b.happen (.settled index none)
  | .failure => b.happen (.settled index (some p.failureText))

def beginObservation (b : Bench) (index key : Nat) : Bench × Option Waiting :=
  match b.watchers[key]? with
  | none => (b.happen (.settled index none), none)
  | some (.pattern p) =>
      if p.latencyMillis = 0 then (b.report index key p, none)
      else (b, some (.latency (b.wakeAfter p.latencyMillis)))
  | some (.steps name description cycles observed) =>
      let b := { b with watchers :=
        b.watchers.setIfInBounds key (.steps name description cycles (observed + 1)) }
      runSteps index name (b.see (.observes name (observed + 1)))
        (cycles[observed % cycles.length]?.getD [])

def resume (b : Bench) (o : Open) : Bench × Option Waiting :=
  match o.waiting with
  | .fresh => b.beginObservation o.index o.key
  | .latency _ =>
      match b.watchers[o.key]? with
      | some (.pattern p) => (b.report o.index o.key p, none)
      | _ => (b.happen (.settled o.index none), none)
  | .asleep name _ rest => runSteps o.index name (b.see (.woke name)) rest

def isDue (b : Bench) (time? : Option Nat) : Bool := time?.all (· ≤ b.clock)

def pastDeadline (b : Bench) : Bool := b.deadline?.any (· ≤ b.clock)

def isReady (b : Bench) (o : Open) : Bool := b.isDue o.waiting.wake? || b.pastDeadline

/-- Goes on with an observation. If it still waits when its time is up, it is cut off. -/
def poll (b : Bench) (o : Open) : Bench :=
  let others := b.opened.filter (·.index ≠ o.index)
  let (b, waiting?) := if b.isDue o.waiting.wake? then b.resume o else (b, some o.waiting)
  match waiting? with
  | none => { b with opened := others }
  | some waiting =>
      if b.pastDeadline then { b.happen (.cutOff o.index) with opened := others }
      else
        { b with opened := b.opened.map fun p =>
            if p.index = o.index then { o with waiting := waiting } else p }

def issue (b : Bench) (contentHash : String) : Except Signer.Refusal Signer.Identity :=
  match b.issuer with
  | .standard => Signer.issueLocal contentHash
  | .fixed identity => .ok identity
  | .failing reason => .error ⟨reason⟩

/-- Hands a run to the executor. The echo executor answers at once. -/
def call (b : Bench) (request : Circuit.Request) : Bench :=
  let b := (b.see (.executes request)).happen .call
  match b.executor with
  | .echo echo =>
      let (echo, answer) := echo.execute request
      { b with executor := .echo echo }.happen (.answered answer)
  | .calls calls made =>
      let plan := (calls[min made (calls.length - 1)]?).getD ⟨0, [], .ok .null⟩
      { b with
        executor := .calls calls (made + 1)
        flight? := some ⟨b.wakeAfter plan.latencyMillis, plan⟩ }

def land (b : Bench) (flight : Flight) : Bench :=
  let b := flight.plan.acts.foldl (fun b a => b.actAs "executor" a) b
  { b.see .executed with flight? := none }.happen (.answered flight.plan.answer)

def beginCycle (b : Bench) : Bench :=
  let b := { b.happen .next with pauseEnd? := none }
  match b.process.progress with
  | .cycling cycle =>
      { b with
        opened := cycle.observing.map fun o => ⟨o.index, o.watcher.key, .fresh⟩
        deadline? := cycle.limit?.map (b.clock + ·.toMillis) }
  | _ => b

/-- Ends a cycle. Without an interval the circuit lets others go first. -/
def leaveCycle (b : Bench) : Bench :=
  let b := b.happen .leave
  match b.process.progress with
  | .between none => { b with yielding := true }
  | _ => b

def cycleStep? (b : Bench) (cycle : Circuit.Cycle) : Option Bench :=
  match b.opened.find? b.isReady with
  | some o => some (b.poll o)
  | none =>
      if b.circuit.stopped && !b.opened.isEmpty then
        some { b.happen .abandon with opened := [] }
      else
        match b.flight? with
        | some flight => if flight.due ≤ b.clock then some (b.land flight) else none
        | none =>
            if 0 < cycle.queued then b.process.request?.map b.call
            else if !b.opened.isEmpty then none
            else if cycle.closed then some b.leaveCycle
            else some (b.happen .close)

def step? (b : Bench) : Option Bench :=
  match b.process.progress with
  | .unstarted | .ended _ => none
  | .opening contentHash _ => some (b.happen (.issued (b.issue contentHash)))
  | .between none => if b.yielding then none else some b.beginCycle
  | .between (some pause) =>
      match b.pauseEnd? with
      | none => some { b with pauseEnd? := some (b.wakeAfter pause.toMillis) }
      | some pauseEnd =>
          if pauseEnd ≤ b.clock || b.circuit.stopped then some b.beginCycle else none
  | .cycling cycle => b.cycleStep? cycle

def settle : Nat → Bench → Bench
  | 0, b => b
  | fuel + 1, b =>
      match b.step? with
      | some b => settle fuel b
      | none => b

def timers (b : Bench) : List Nat :=
  let wakes := b.opened.filterMap (·.waiting.wake?)
  let deadlines := if b.opened.isEmpty then [] else b.deadline?.toList
  let pauses := match b.process.progress with
    | .between (some _) => b.pauseEnd?.toList
    | _ => []
  wakes ++ deadlines ++ (b.flight?.map Flight.due).toList ++ pauses

end Bench

structure Frame where
  began : Nat
  /-- Whether this start got through, and goes on with the circuit. -/
  running : Bool
  result? : Option (Except Circuit.StartError PUnit × Nat)
  rest : List (Nat × Step)
  sleepUntil? : Option Nat
  /-- What came of the steps so far, the latest first. -/
  outcomes : List Outcome

namespace Frame

def due? (f : Frame) : Option Nat :=
  match f.sleepUntil? with
  | some t => some t
  | none => f.rest.head?.map fun (at_, _) => f.began + at_

def collect (b : Bench) (f : Frame) : Frame :=
  match b.process.progress with
  | .ended result =>
      if f.running && f.result?.isNone then
        { f with result? := some (result, b.clock - f.began) }
      else f
  | _ => f

def outcome? (f : Frame) : Option Outcome :=
  match f.result?, f.rest, f.sleepUntil? with
  | some (result, elapsed), [], none => some (.started result elapsed f.outcomes.reverse)
  | _, _, _ => none

def push (f : Frame) (o : Outcome) : Frame := { f with outcomes := o :: f.outcomes }

end Frame

namespace Bench

def horizon : Nat := 100000000

/-- Starts the circuit. A start that is refused has its result at once. -/
def open_ (b : Bench) (options : Circuit.Options) (meanwhile : List (Nat × Step)) :
    Bench × Frame :=
  let frame : Frame := ⟨b.clock, false, none, meanwhile, none, []⟩
  match (b.circuit.begin now).2 with
  | .refused fault =>
      (b.happen (.start options),
        { frame with result? := some (.error (.configuration fault), 0) })
  | _ =>
      let b := b.happen (.start options)
      (settle horizon b, { frame with running := true })

def frameDue (b : Bench) (f : Frame) : Bool := f.due?.any (· ≤ b.clock)

def advance (b : Bench) (f : Frame) (outer : List Frame) : Bench × List Frame :=
  match f.sleepUntil?, f.rest with
  | some _, _ => (b, ({ f with sleepUntil? := none }.push .done) :: outer)
  | none, [] => (b, f :: outer)
  | none, (_, step) :: rest =>
      let f := { f with rest := rest }
      match step with
      | .act a =>
          let (b, outcome) := b.act a
          (b, f.push outcome :: outer)
      | .sleep millis => (b, { f with sleepUntil? := some (b.wakeAfter millis) } :: outer)
      | .http method target =>
          let (circuit, response) := Http.respond b.circuit method target
          ({ b with process := { b.process with circuit := circuit } },
            f.push (.response response) :: outer)
      | .start options meanwhile =>
          let (b, inner) := b.open_ options meanwhile
          (b, inner :: f :: outer)

def nextInstant? (b : Bench) (f : Frame) : Option Nat :=
  ((b.timers ++ f.due?.toList).filter (b.clock < ·)).min?

def run : Nat → Bench → List Frame → Bench × Option Outcome
  | 0, b, _ => (b, none)
  | _, b, [] => (b, none)
  | fuel + 1, b, f :: outer =>
      let f := f.collect b
      let outer := outer.map (·.collect b)
      if b.frameDue f then
        let (b, frames) := b.advance f outer
        run fuel b frames
      else
        match f.outcome?, outer with
        | some outcome, [] => (b, some outcome)
        | some outcome, parent :: outer => run fuel b (parent.push outcome :: outer)
        | none, _ =>
            let rested := { b with yielding := false }
            match rested.step? with
            | some b => run fuel (settle horizon b) (f :: outer)
            | none =>
                match b.nextInstant? f with
                | some t => run fuel (settle horizon { rested with clock := t }) (f :: outer)
                | none => (b, none)

def perform (b : Bench) : Step → Bench × Outcome
  | .act a => b.act a
  | .sleep millis => ({ b with clock := b.wakeAfter millis }, .done)
  | .http method target =>
      let (circuit, response) := Http.respond b.circuit method target
      ({ b with process := { b.process with circuit := circuit } }, .response response)
  | .start options meanwhile =>
      let (b, frame) := b.open_ options meanwhile
      let (b, outcome?) := run horizon b [frame]
      (b, outcome?.getD .done)

def takeSeen (b : Bench) : Bench × List Trace := ({ b with seen := [] }, b.seen.reverse)

end Bench
end Tripwire.Rehearsal
