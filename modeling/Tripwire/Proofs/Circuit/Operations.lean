import Tripwire.Circuit.Process

namespace Tripwire.Circuit

variable {c c' : Circuit} {now : Time.Instant}

def outcome (c : Circuit) : Condition.Outcome :=
  Condition.decideOutcome (c.logic?.map (·.policy)) c.satisfied c.watchers.length

def fires (c : Circuit) : Bool := c.outcome = .fire

theorem fires_iff : c.fires = true ↔ c.outcome = .fire := decide_eq_true_iff

def evaluation (c : Circuit) : Note :=
  .evaluated (c.logic?.map (·.policy)) c.outcome c.satisfied.ids c.watchers.length

def evaluated (c : Circuit) (now : Time.Instant) : Circuit :=
  { c with
    log := c.log.append ⟨c.evaluation, now⟩
    fired := c.fired || c.fires
    counters := { c.counters with
      executed := c.counters.executed + (c.fires && !c.fired).toNat } }

theorem claim_eq (c : Circuit) (now : Time.Instant) :
    c.claim now = (c.evaluated now, c.fires && !c.fired) := by
  cases due : c.outcome <;> cases spent : c.fired <;>
    simp_all [claim, evaluate, evaluated, evaluation, fires, outcome, write]

def isOpen (c : Circuit) : Prop := c.status = .idle ∨ c.status = .armed

theorem isOpen_of_startFault? (startable : c.startFault? = none) : c.isOpen := by
  unfold startFault? at startable
  split at startable
  · cases startable
  · split at startable
    · cases startable
    · cases status : c.status <;> simp_all [isOpen]

theorem begin_refused {fault : Fault} (begun : c.begin now = (c', .refused fault)) :
    c.startFault? = some fault ∧ c' = c.write now (.startRefused fault) := by
  unfold begin at begun
  split at begun
  · rename_i faulty
    obtain ⟨rfl, same⟩ := Prod.mk.inj begun
    cases same
    exact ⟨faulty, rfl⟩
  · split at begun
    · simp at begun
    · split at begun <;> simp at begun

theorem begin_over (begun : c.begin now = (c', .over)) :
    c.startFault? = none ∧ (c.stopped ∨ (c.gate.exhausted? c.counters now).isSome) ∧
      ∃ log, c' = { c with log := log, status := .halted } := by
  unfold begin at begun
  split at begun
  · simp at begun
  · rename_i startable
    refine ⟨startable, ?_⟩
    split at begun
    · rename_i stopped
      exact ⟨.inl stopped, _, (Prod.mk.inj begun).1.symm⟩
    · split at begun
      · rename_i bound exhausted
        exact ⟨.inr (by simp [exhausted]), _, (Prod.mk.inj begun).1.symm⟩
      · simp at begun

theorem begin_running (begun : c.begin now = (c', .running)) :
    c.startFault? = none ∧ c.stopped = false ∧ c.gate.exhausted? c.counters now = none ∧
      c' = { c with status := .running } := by
  unfold begin at begun
  split at begun
  · simp at begun
  · rename_i startable
    split at begun
    · simp at begun
    · rename_i going
      split at begun
      · simp at begun
      · rename_i within
        exact ⟨startable, by simpa using going, within, (Prod.mk.inj begun).1.symm⟩

theorem finishRun_ok (c : Circuit) (now : Time.Instant) (contentHash : String) (response : Value) :
    ∃ log, c.finishRun now contentHash (.ok response) =
      { c with
        counters := ⟨c.counters.executed, c.counters.completed + 1⟩
        log := log
        stopped := c.stopped ||
          (c.gate.exhausted? ⟨c.counters.executed, c.counters.completed + 1⟩ now).isSome } := by
  unfold finishRun
  simp only
  split
  · rename_i bound exhausted
    simp only [write] at exhausted
    refine ⟨((c.log.append ⟨.runCompleted contentHash response, now⟩).append
      ⟨.exhausted bound ⟨c.counters.executed, c.counters.completed + 1⟩, now⟩), ?_⟩
    simp [write, stop, exhausted]
  · rename_i within
    simp only [write] at within
    refine ⟨c.log.append ⟨.runCompleted contentHash response, now⟩, ?_⟩
    simp [write, within]

theorem finishRun_error (c : Circuit) (now : Time.Instant) (contentHash : String)
    (failure : RunFailure) :
    c.finishRun now contentHash (.error failure) =
      { c.write now (.runFailed contentHash failure) with
        failure? := c.failure?.or (some failure)
        stopped := true } := rfl

/-- An operation on a circuit that does not bring its start forward. A start that is refused is one. -/
inductive Operation (now : Time.Instant) (c : Circuit) : Event → Circuit → Prop where
  | setConditions (watchers : List Watcher) :
      Operation now c (.setConditions watchers) (c.setConditions watchers)
  | setLogic (logic : Condition.Logic) : Operation now c (.setLogic logic) (c.setLogic logic)
  | setConstraints (constraints : Run.Constraints) :
      Operation now c (.setConstraints constraints) (c.setConstraints constraints)
  | setActions (actions : List Action) :
      Operation now c (.setActions actions) (c.setActions now actions).1
  | stop : Operation now c .stop c.stop
  | refuse {fault : Fault} (options : Options) (faulty : c.startFault? = some fault) :
      Operation now c (.start options) (c.write now (.startRefused fault))

theorem refresh_eq (c : Circuit) : c.refresh = { c with status := c.refresh.status } := by
  unfold refresh
  cases c.status <;> rfl

theorem isOpen_refresh (opened : c.isOpen) : c.refresh.isOpen := by
  rcases opened with status | status
  all_goals
    simp only [refresh, status, isOpen]
    cases (c.watchers.isEmpty || c.script.isEmpty) <;> simp

theorem status_refresh (begun : ¬c.isOpen) : c.refresh.status = c.status := by
  unfold refresh
  cases status : c.status with
  | idle => exact absurd (.inl status) begun
  | armed => exact absurd (.inr status) begun
  | _ => exact status

theorem setConditions_eq (c : Circuit) (watchers : List Watcher) :
    ∃ status, c.setConditions watchers =
      { c with watchers := watchers, satisfied := .empty, status := status } :=
  ⟨_, refresh_eq _⟩

theorem setActions_cases (c : Circuit) (now : Time.Instant) (actions : List Action) :
    (∃ script, (c.setActions now actions).1 = ({ c with script := script } : Circuit).refresh) ∨
      ∃ fault, (c.setActions now actions).1 = c.write now (.compileFailed fault) := by
  unfold setActions
  split
  · exact .inl ⟨_, rfl⟩
  · exact .inr ⟨_, rfl⟩

theorem setActions_eq (c : Circuit) (now : Time.Instant) (actions : List Action) :
    ∃ script log status, (c.setActions now actions).1 =
      { c with script := script, log := log, status := status } := by
  rcases setActions_cases c now actions with ⟨script, same⟩ | ⟨fault, same⟩
  · exact ⟨script, c.log, _, same.trans (refresh_eq _)⟩
  · exact ⟨c.script, (c.write now (.compileFailed fault)).log, c.status, same⟩

namespace Operation
variable {event : Event}

theorem frame (operation : Operation now c event c') :
    c'.counters = c.counters ∧ c'.fired = c.fired ∧ c'.failure? = c.failure? ∧
      c'.session? = c.session? := by
  cases operation with
  | setConditions watchers =>
      obtain ⟨status, same⟩ := setConditions_eq c watchers
      simp [same]
  | setActions actions =>
      obtain ⟨script, log, status, same⟩ := setActions_eq c now actions
      simp [same]
  | _ => exact ⟨rfl, rfl, rfl, rfl⟩

theorem stopped (operation : Operation now c event c') (raised : c.stopped = true) :
    c'.stopped = true := by
  cases operation with
  | setConditions watchers =>
      obtain ⟨status, same⟩ := setConditions_eq c watchers
      rw [same]
      exact raised
  | setActions actions =>
      obtain ⟨script, log, status, same⟩ := setActions_eq c now actions
      rw [same]
      exact raised
  | stop => rfl
  | _ => exact raised

theorem isOpen (operation : Operation now c event c') (opened : c.isOpen) : c'.isOpen := by
  cases operation with
  | setConditions watchers => exact isOpen_refresh (c := { c with watchers, satisfied := .empty }) opened
  | setActions actions =>
      rcases setActions_cases c now actions with ⟨script, same⟩ | ⟨fault, same⟩
      · rw [same]
        exact isOpen_refresh (c := { c with script }) opened
      · rw [same]
        exact opened
  | _ => exact opened

theorem status (operation : Operation now c event c') (begun : ¬c.isOpen) :
    c'.status = c.status := by
  cases operation with
  | setConditions watchers =>
      exact status_refresh (c := { c with watchers, satisfied := .empty }) begun
  | setActions actions =>
      rcases setActions_cases c now actions with ⟨script, same⟩ | ⟨fault, same⟩
      · rw [same]
        exact status_refresh (c := { c with script }) begun
      · rw [same]
        rfl
  | _ => rfl

theorem gate (operation : Operation now c event c')
    (kept : ∀ constraints, event ≠ .setConstraints constraints) : c'.gate = c.gate := by
  cases operation with
  | setConditions watchers =>
      obtain ⟨status, same⟩ := setConditions_eq c watchers
      rw [same]
  | setActions actions =>
      obtain ⟨script, log, status, same⟩ := setActions_eq c now actions
      rw [same]
  | setConstraints constraints => exact absurd rfl (kept constraints)
  | _ => rfl

theorem conditions (operation : Operation now c event c')
    (kept : ∀ watchers, event ≠ .setConditions watchers) :
    c'.watchers = c.watchers ∧ c'.satisfied = c.satisfied := by
  cases operation with
  | setConditions watchers => exact absurd rfl (kept watchers)
  | setActions actions =>
      obtain ⟨script, log, status, same⟩ := setActions_eq c now actions
      rw [same]
      exact ⟨rfl, rfl⟩
  | _ => exact ⟨rfl, rfl⟩

end Operation
end Tripwire.Circuit
