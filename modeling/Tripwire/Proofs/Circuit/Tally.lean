import Tripwire.Proofs.Circuit.Course

namespace Tripwire.Circuit.Process

variable {p q : Process} {now : Time.Instant} {event : Event}

namespace Stage

/-- The circuit whose logic is evaluated in a stage: after each report, and at the end of a cycle unless
the circuit is to stop. -/
def evaluates? (s : Stage) : Option Circuit :=
  match s.event with
  | .matched index => some (s.before.circuit.recordMatch s.now (Condition.idOf index))
  | .unmatched index => some (s.before.circuit.recordUnmatch s.now (Condition.idOf index))
  | .close => if s.before.circuit.stopped then none else some s.before.circuit
  | _ => none

def outcome? (s : Stage) : Option Condition.Outcome :=
  s.evaluates?.map fun c => (c.evaluate s.now).2

def claims (s : Stage) : Bool := s.evaluates?.any fun c => (c.claim s.now).2

def calls (s : Stage) : Bool :=
  match s.event with
  | .call => true
  | _ => false

def succeeds (s : Stage) : Bool :=
  match s.event with
  | .answered (.ok _) => true
  | _ => false

def failure? (s : Stage) : Option RunFailure :=
  match s.event with
  | .answered (.error failure) => some failure
  | _ => none

def fails (s : Stage) : Bool := s.failure?.isSome

theorem failure?_eq_some_iff {s : Stage} {failure : RunFailure} :
    s.failure? = some failure ↔ s.event = .answered (.error failure) := by
  obtain ⟨_, _, event, _⟩ := s
  cases event with
  | answered answer => cases answer <;> simp [failure?]
  | _ => simp [failure?]

end Stage

def queued (p : Process) : Nat :=
  match p.progress with
  | .cycling cycle => cycle.queued
  | _ => 0

def flying (p : Process) : Nat :=
  match p.progress with
  | .cycling cycle => cycle.flying
  | _ => 0

def failed? (p : Process) : Option RunFailure :=
  match p.progress with
  | .ended (.error (.execution failure)) => some failure
  | .ended _ => none
  | _ => p.circuit.failure?

structure Tally (s : Stage) : Prop where
  executed : s.after.circuit.counters.executed = s.before.circuit.counters.executed + s.claims.toNat
  completed : s.after.circuit.counters.completed =
    s.before.circuit.counters.completed + s.succeeds.toNat
  queued : s.after.queued + s.calls.toNat = s.before.queued + s.claims.toNat
  flying : s.after.flying + s.succeeds.toNat + s.fails.toNat = s.before.flying + s.calls.toNat
  failed : s.after.failed? = s.before.failed?.or s.failure?

theorem Tally.operate {c c' : Circuit} (progress : Progress) (operation : Operation now c event c') :
    Tally ⟨⟨c, progress⟩, now, event, ⟨c', progress⟩⟩ := by
  obtain ⟨counters, -, failure, -⟩ := operation.frame
  have failed : failed? ⟨c', progress⟩ = failed? ⟨c, progress⟩ := by
    unfold failed?
    split <;> simp_all
  cases operation <;> constructor <;>
    simp_all [Stage.claims, Stage.evaluates?, Stage.calls, Stage.succeeds, Stage.fails,
      Stage.failure?, Process.queued, Process.flying]

theorem Tally.quiet {s : Stage} (unevaluated : s.evaluates? = none) (uncalled : s.calls = false)
    (unanswered : s.succeeds = false) (unfailed : s.failure? = none)
    (counters : s.after.circuit.counters = s.before.circuit.counters)
    (queued : s.after.queued = s.before.queued) (flying : s.after.flying = s.before.flying)
    (failed : s.after.failed? = s.before.failed?) : Tally s := by
  constructor <;>
    simp_all [Stage.claims, Stage.fails]

theorem Stage.claims_of_evaluates? {s : Stage} {c : Circuit} (evaluated : s.evaluates? = some c) :
    s.claims = (c.fires && !c.fired) := by
  simp [Stage.claims, evaluated, claim_eq]

theorem Stage.evaluates?_report {c r : Circuit} {index : Nat} (progress : Progress)
    (report : Report now c index event r) :
    (⟨⟨c, progress⟩, now, event, q⟩ : Stage).evaluates? = some r := by
  cases report <;> rfl

theorem failed?_openSession {c : Circuit} (now : Time.Instant) (unfailed : c.failure? = none)
    (options : Options) (key : String) :
    (openSession c now options key).failed? = none ∧
      (openSession c now options key).circuit.counters = c.counters ∧
      (openSession c now options key).queued = 0 ∧ (openSession c now options key).flying = 0 := by
  rcases openSession_cases c now options key with ⟨-, opened⟩ | ⟨fault, refused⟩
  · rw [opened]
    exact ⟨unfailed, rfl, rfl, rfl⟩
  · rw [refused]
    exact ⟨rfl, rfl, rfl, rfl⟩

theorem Step.tally (step : Step now p event q) (coherent : Coherent p) :
    Tally ⟨p, now, event, q⟩ := by
  cases step with
  | operate progress operation => exact .operate progress operation
  | forgo progress options begun =>
      obtain ⟨startable, -, log, rfl⟩ := begin_over begun
      obtain rfl := coherent.unstarted_of_isOpen (isOpen_of_startFault? startable)
      cases coherent with
      | unstarted _ _ unfailed => exact .quiet rfl rfl rfl rfl rfl rfl rfl unfailed.symm
  | request progress begun keyless =>
      obtain ⟨startable, -, -, rfl⟩ := begin_running begun
      obtain rfl := coherent.unstarted_of_isOpen (isOpen_of_startFault? startable)
      exact .quiet rfl rfl rfl rfl rfl rfl rfl rfl
  | @enter c _ options key progress begun keyed =>
      obtain ⟨startable, -, -, rfl⟩ := begin_running begun
      obtain rfl := coherent.unstarted_of_isOpen (isOpen_of_startFault? startable)
      cases coherent with
      | unstarted _ _ unfailed =>
          obtain ⟨failed, counters, queued, flying⟩ :=
            failed?_openSession (c := { c with status := .running }) now unfailed options key
          exact .quiet rfl rfl rfl rfl counters queued flying (failed.trans unfailed.symm)
  | @issue c contentHash options identity =>
      cases coherent with
      | opening _ _ unfailed =>
          obtain ⟨failed, counters, queued, flying⟩ :=
            failed?_openSession (c := c.write now (.identityIssued identity)) now unfailed
              options identity.publicKey
          exact .quiet rfl rfl rfl rfl counters queued flying (failed.trans unfailed.symm)
  | deny contentHash options refusal =>
      cases coherent with
      | opening _ _ unfailed => exact .quiet rfl rfl rfl rfl rfl rfl rfl unfailed.symm
  | halt pause? stopped =>
      cases coherent with
      | between _ _ unfailed => exact .quiet rfl rfl rfl rfl rfl rfl rfl unfailed.symm
  | begin pause? going => exact .quiet rfl rfl rfl rfl rfl rfl rfl rfl
  | @report c r cycle event index observes report =>
      -- A report claims the run if it fires first, and then queues it.
      have claims := Stage.claims_of_evaluates? (Stage.evaluates?_report
        (.cycling cycle)
        (q := ⟨r.evaluated now,
          .cycling { cycle with queued := cycle.queued + (r.fires && !c.fired).toNat }⟩) report)
      cases report <;>
        exact ⟨by rw [claims]; rfl, rfl, by rw [claims]; rfl, rfl, Option.or_none.symm⟩
  | release release =>
      cases release <;> exact .quiet rfl rfl rfl rfl rfl rfl rfl rfl
  | abandon cycle stopped => exact .quiet rfl rfl rfl rfl rfl rfl rfl rfl
  | @call c cycle request idle queued requested =>
      refine ⟨rfl, rfl, ?_, ?_, Option.or_none.symm⟩
      · exact Nat.sub_add_cancel queued
      · simp [Process.flying, Cycle.flying, Stage.succeeds, Stage.fails, Stage.failure?, Stage.calls,
          idle]
  | @answer c cycle contentHash flying answer =>
      cases answer with
      | ok response =>
          obtain ⟨log, finished⟩ := finishRun_ok c now contentHash response
          rw [finished]
          refine ⟨rfl, rfl, rfl, ?_, Option.or_none.symm⟩
          simp [Process.flying, Cycle.flying, Stage.succeeds, Stage.fails, Stage.failure?,
            Stage.calls, flying]
      | error failure =>
          refine ⟨rfl, rfl, rfl, ?_, rfl⟩
          simp [Process.flying, Cycle.flying, Stage.succeeds, Stage.fails, Stage.failure?,
            Stage.calls, flying]
  | skip settled drained unclosed stopped =>
      exact .quiet (by simp [Stage.evaluates?, stopped]) rfl rfl rfl rfl rfl rfl rfl
  | @close c cycle settled drained unclosed going =>
      have empty := Cycle.drained_iff.mp drained
      have claims := Stage.claims_of_evaluates? (c := c) (s := ⟨⟨c, .cycling cycle⟩, now, .close,
        ⟨c.evaluated now,
          .cycling { cycle with closed := true, queued := (c.fires && !c.fired).toNat }⟩⟩)
        (by simp [Stage.evaluates?, going])
      refine ⟨by rw [claims]; rfl, rfl, ?_, rfl, Option.or_none.symm⟩
      rw [claims]
      simp [Process.queued, Stage.calls, empty]
  | fail closed drained failed =>
      have empty := Cycle.drained_iff.mp drained
      refine .quiet rfl rfl rfl rfl rfl ?_ ?_ failed.symm
      · exact empty.1.symm
      · simp [Process.flying, Cycle.flying, empty, finish]
  | end_ closed drained unfailed stopped =>
      have empty := Cycle.drained_iff.mp drained
      refine .quiet rfl rfl rfl rfl rfl ?_ ?_ unfailed.symm
      · exact empty.1.symm
      · simp [Process.flying, Cycle.flying, empty, finish]
  | pause closed drained unfailed going =>
      have empty := Cycle.drained_iff.mp drained
      refine .quiet rfl rfl rfl rfl rfl ?_ ?_ rfl
      · exact empty.1.symm
      · simp [Process.flying, Cycle.flying, empty]

end Tripwire.Circuit.Process
