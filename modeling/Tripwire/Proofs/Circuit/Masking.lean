import Tripwire.Proofs.Circuit.Operations
import Tripwire.Proofs.Script.Masking
import Tripwire.Proofs.Value.Fields

namespace Tripwire.Circuit

def hidden (fields : List (String × Value)) : List (String × Value) :=
  Value.mapValues (fun _ => .null) fields

def Options.masked (o : Options) : Options := ⟨o.publicKey?, .null, hidden o.params⟩

def Session.masked (s : Session) : Session := ⟨s.publicKey, .null, hidden s.params⟩

def Request.masked (r : Request) : Request := { r with authSig := .null, params := hidden r.params }

def masked (c : Circuit) : Circuit :=
  { c with script := c.script.masked, session? := c.session?.map Session.masked }

def Progress.masked : Progress → Progress
  | .opening contentHash options => .opening contentHash options.masked
  | progress => progress

def Process.masked (p : Process) : Process := ⟨p.circuit.masked, p.progress.masked⟩

def Event.masked : Event → Event
  | .setActions actions => .setActions (actions.map Action.masked)
  | .start options => .start options.masked
  | event => event

theorem hidden_params (script : Script) : hidden script.masked.params = hidden script.params := by
  have empty : script.masked.apiKeys.isEmpty = script.apiKeys.isEmpty := by
    simp [Script.masked, Script.maskKeys]
  unfold Script.params
  rw [empty]
  split <;> rfl

theorem hidden_idem (fields : List (String × Value)) : hidden (hidden fields) = hidden fields :=
  List.map_map

theorem hidden_requestParams (script : Script) (session : Session) :
    hidden (requestParams script.masked session.masked) = hidden (requestParams script session) := by
  have append (left right : List (String × Value)) :
      hidden (left ++ right) = hidden left ++ hidden right := List.map_append
  unfold requestParams
  rw [hidden, hidden, ← Value.sortFields_mapValues, ← Value.sortFields_mapValues]
  show Value.sortFields (hidden _) = Value.sortFields (hidden _)
  rw [append, append, append, append, hidden_params]
  show Value.sortFields (_ ++ hidden (hidden _) ++ _) = _
  rw [hidden_idem]
  rfl

theorem request?_masked (c : Circuit) :
    c.masked.request?.map Request.masked = c.request?.map Request.masked := by
  cases session? : c.session? with
  | none => simp [request?, masked, session?]
  | some session =>
      simp only [request?, masked, session?, Option.map_some, Option.some.injEq]
      simp only [Request.masked, requestOf, Request.mk.injEq, true_and]
      exact ⟨rfl, rfl, hidden_requestParams c.script session⟩

variable (c : Circuit) (now : Time.Instant)

theorem refresh_masked : c.masked.refresh = c.refresh.masked := by
  have empty : c.masked.script.isEmpty = c.script.isEmpty := rfl
  cases status : c.status <;> simp [refresh, masked, status] <;> rfl

theorem setActions_masked (actions : List Action) :
    c.masked.setActions now (actions.map Action.masked) =
      ((c.setActions now actions).1.masked, (c.setActions now actions).2) := by
  unfold setActions
  rw [show c.masked.script = c.script.masked from rfl, Script.compile_masked]
  cases c.script.compile actions with
  | ok compiled => exact Prod.ext (refresh_masked { c with script := compiled.script }) rfl
  | error fault => rfl

theorem setConditions_masked (watchers : List Watcher) :
    c.masked.setConditions watchers = (c.setConditions watchers).masked :=
  refresh_masked { c with watchers := watchers, satisfied := .empty }

theorem begin_masked : c.masked.begin now = ((c.begin now).1.masked, (c.begin now).2) := by
  have fault : c.masked.startFault? = c.startFault? := rfl
  have flag : c.masked.stopped = c.stopped := rfl
  have exhausted : c.masked.gate.exhausted? c.masked.counters now =
    c.gate.exhausted? c.counters now := rfl
  unfold begin
  rw [fault, flag, exhausted]
  split
  · rfl
  · split
    · rfl
    · split <;> rfl

theorem finishRun_masked (contentHash : String) (answer : Except RunFailure Value) :
    c.masked.finishRun now contentHash answer = (c.finishRun now contentHash answer).masked := by
  cases answer with
  | error failure => rfl
  | ok response =>
      cases exhausted : c.gate.exhausted? ⟨c.counters.executed, c.counters.completed + 1⟩ now with
      | none => simp [finishRun, write, masked, exhausted]
      | some bound => simp [finishRun, write, stop, masked, exhausted]

namespace Process

theorem openSession_masked (options : Options) (key : String) :
    openSession c.masked now options.masked key = (openSession c now options key).masked := by
  unfold openSession
  cases Signer.checkPublicKey key <;> rfl

theorem start_masked (p : Process) (options : Options) :
    p.masked.start now options.masked = (p.start now options).masked := by
  obtain ⟨c, progress⟩ := p
  unfold start
  rw [show (Process.masked ⟨c, progress⟩).circuit = c.masked from rfl, begin_masked]
  obtain ⟨c', beginning⟩ := c.begin now
  match beginning with
  | .refused fault => rfl
  | .over => rfl
  | .running =>
      obtain ⟨key?, authSig, params⟩ := options
      cases key? with
      | none => rfl
      | some key => exact openSession_masked c' now ⟨some key, authSig, params⟩ key

theorem evaluateReport_masked (cycle : Cycle) :
    evaluateReport c.masked now cycle = (evaluateReport c now cycle).masked := by
  unfold evaluateReport
  rw [claim_eq, claim_eq]
  rfl

theorem closeCycle_masked (cycle : Cycle) :
    closeCycle c.masked now cycle = (closeCycle c now cycle).masked := by
  unfold closeCycle
  rw [claim_eq, claim_eq, show c.masked.stopped = c.stopped from rfl]
  cases c.stopped <;> rfl

theorem leaveCycle_masked : leaveCycle c.masked = (leaveCycle c).masked := by
  have failure : c.masked.failure? = c.failure? := rfl
  have flag : c.masked.stopped = c.stopped := rfl
  unfold leaveCycle
  rw [failure, flag]
  split
  · rfl
  · split <;> rfl

theorem beginCycle_masked : beginCycle c.masked = (beginCycle c).masked := by
  have flag : c.masked.stopped = c.stopped := rfl
  unfold beginCycle
  rw [flag]
  split <;> rfl

theorem cycleStep?_masked (cycle : Cycle) (event : Event) :
    cycleStep? c.masked cycle now event.masked = (cycleStep? c cycle now event).map masked := by
  cases event with
  | matched index =>
      simp only [Event.masked, cycleStep?]
      cases cycle.observes index with
      | false => rfl
      | true => exact congrArg some (evaluateReport_masked (c.recordMatch now _) now cycle)
  | unmatched index =>
      simp only [Event.masked, cycleStep?]
      cases cycle.observes index with
      | false => rfl
      | true => exact congrArg some (evaluateReport_masked (c.recordUnmatch now _) now cycle)
  | settled index error? =>
      simp only [Event.masked, cycleStep?]
      cases cycle.observing.find? (·.index = index) with
      | none => rfl
      | some o => cases error? <;> rfl
  | cutOff index =>
      simp only [Event.masked, cycleStep?]
      cases cycle.limit? with
      | none => rfl
      | some limit => cases cycle.observes index <;> rfl
  | abandon =>
      have flag : c.masked.stopped = c.stopped := rfl
      simp only [Event.masked, cycleStep?, flag]
      cases c.stopped <;> rfl
  | call =>
      have same := request?_masked c
      simp only [Event.masked, cycleStep?]
      cases cycle.inFlight? with
      | some contentHash => rfl
      | none =>
          cases request? : c.masked.request? <;> cases request?' : c.request?
          case none.none => rfl
          case some.some request request' =>
            rw [request?, request?', Option.map_some, Option.map_some, Option.some.injEq] at same
            have contentHash : request.masked.contentHash = request'.masked.contentHash := by rw [same]
            change request.contentHash = request'.contentHash at contentHash
            by_cases queued : 0 < cycle.queued
            · simp only [queued, if_true, contentHash]
              rfl
            · simp only [queued, if_false]
              rfl
          all_goals simp [request?, request?'] at same
  | answered answer =>
      simp only [Event.masked, cycleStep?, finishRun_masked]
      cases cycle.inFlight? <;> rfl
  | close =>
      simp only [Event.masked, cycleStep?, closeCycle_masked]
      split <;> rfl
  | leave =>
      simp only [Event.masked, cycleStep?, leaveCycle_masked]
      split <;> rfl
  | _ => rfl

theorem step?_masked (p : Process) (event : Event) :
    p.masked.step? now event.masked = (p.step? now event).map masked := by
  obtain ⟨c, progress⟩ := p
  have within (cycle : Cycle) := cycleStep?_masked c now cycle event
  cases event with
  | setConditions watchers =>
      simp only [Process.masked, Event.masked, step?, setConditions_masked, Option.map_some]
  | setActions actions =>
      simp only [Process.masked, Event.masked, step?, setActions_masked, Option.map_some]
  | start options => exact congrArg some (start_masked now ⟨c, progress⟩ options)
  | issued answer =>
      cases progress with
      | opening contentHash options =>
          cases answer with
          | error refusal => rfl
          | ok identity =>
              exact congrArg some
                (openSession_masked (c.write now (.identityIssued identity)) now options _)
      | _ => rfl
  | next =>
      cases progress with
      | between pause? => exact congrArg some (beginCycle_masked c)
      | _ => rfl
  | setLogic | setConstraints | stop => rfl
  | _ =>
      cases progress with
      | cycling cycle => exact within cycle
      | _ => rfl

end Process
end Tripwire.Circuit
