import Mathlib.Data.List.DropRight
import Tripwire.Proofs.Circuit.Lifecycle
import Tripwire.Proofs.Circuit.Provenance

/-!
# After a stop

Once a circuit was asked to stop it remains so. No cycle begins any more, and the cycle in progress hands
over the one run that it may still have due at most. `Spent` is where no run can follow: its cycle has had
its run, and the circuit is to stop, or will be when the run is over.
-/
namespace Tripwire.Circuit.Process

variable {p q : Process} {now : Time.Instant} {event : Event} {stages earlier : List Stage}

theorem Step.stopped (step : Step now p event q) (stopped : p.circuit.stopped = true) :
    q.circuit.stopped = true := by
  rcases step.frame with operation | ⟨-, kept⟩
  · exact operation.stopped stopped
  · exact kept stopped

theorem Course.stopped (course : Course p stages q) (stopped : p.circuit.stopped = true) :
    q.circuit.stopped = true ∧
      ∀ s ∈ stages, s.before.circuit.stopped = true ∧ s.after.circuit.stopped = true :=
  course.invariant Step.stopped stopped

def Spent (p : Process) : Prop :=
  match p.progress with
  | .cycling cycle => p.circuit.fired = true ∧ cycle.queued = 0 ∧
      (p.circuit.stopped = true ∨ cycle.inFlight?.isSome)
  | .ended _ => True
  | _ => p.circuit.stopped = true

theorem spent_of_stopped (stopped : p.circuit.stopped = true) (still : ¬p.Cycling) : Spent p := by
  unfold Spent
  split
  · rename_i cycle cycling
    exact absurd ⟨cycle, cycling⟩ still
  · trivial
  · exact stopped

theorem spent_openSession {c : Circuit} (stopped : c.stopped = true) (now : Time.Instant)
    (options : Options) (key : String) : Spent (openSession c now options key) := by
  obtain ⟨log, session?, status, same⟩ := openSession_frame c now options key
  exact spent_of_stopped (by rw [same]; exact stopped) not_cycling_openSession

theorem Spent.operate {c c' : Circuit} {progress : Progress} (spent : Spent ⟨c, progress⟩)
    (operation : Operation now c event c') : Spent ⟨c', progress⟩ := by
  obtain ⟨-, fired, -, -⟩ := operation.frame
  cases progress with
  | cycling cycle =>
      obtain ⟨had, unqueued, ending⟩ := spent
      exact ⟨fired.trans had, unqueued, ending.imp_left operation.stopped⟩
  | ended result => trivial
  | _ => exact operation.stopped spent

/-- The constraints in force after a stage are exhausted. -/
def Stage.Exits (s : Stage) : Prop :=
  (s.after.circuit.gate.exhausted? s.after.circuit.counters s.now).isSome

theorem Step.spent (step : Step now p event q) (coherent : Coherent p) (spent : Spent p)
    (exits : p.circuit.stopped = true ∨ (⟨p, now, event, q⟩ : Stage).Exits) : Spent q := by
  cases step with
  | operate progress operation => exact spent.operate operation
  | forgo progress options begun => trivial
  | request progress begun keyless | enter progress begun keyed =>
      obtain ⟨startable, going, -, rfl⟩ := begin_running begun
      obtain rfl := coherent.unstarted_of_isOpen (isOpen_of_startFault? startable)
      simp [Spent, going] at spent
  | @issue c contentHash options identity =>
      exact spent_openSession (c := c.write now (.identityIssued identity)) spent ..
  | begin pause? going => simp [Spent, going] at spent
  | report observes report =>
      obtain ⟨satisfied, log, rfl⟩ := report.frame
      obtain ⟨had, unqueued, ending⟩ := spent
      simp only at had unqueued ending
      simp [Spent, evaluated, had, unqueued, ending]
  | release release =>
      obtain ⟨log, rfl⟩ := release.frame
      exact spent
  | call idle queued requested =>
      obtain ⟨-, unqueued, -⟩ := spent
      omega
  | @answer c cycle contentHash flying answer =>
      obtain ⟨had, unqueued, -⟩ := spent
      cases answer with
      | ok response =>
          obtain ⟨log, finished⟩ := finishRun_ok c now contentHash response
          simp only [Stage.Exits, finished] at exits
          rw [finished]
          refine ⟨had, unqueued, .inl ?_⟩
          simpa using exits
      | error failure => exact ⟨had, unqueued, .inl rfl⟩
  | close settled drained unclosed going =>
      obtain ⟨had, unqueued, ending⟩ := spent
      have idle := (Cycle.drained_iff.mp drained).2
      simp [going, idle] at ending
  | pause closed drained unfailed going =>
      obtain ⟨had, unqueued, ending⟩ := spent
      have idle := (Cycle.drained_iff.mp drained).2
      simp [going, idle] at ending
  | abandon | skip => exact spent
  | _ => trivial

theorem Step.spends (step : Step now p event q) (coherent : Coherent p)
    (calls : (⟨p, now, event, q⟩ : Stage).calls = true) : ¬Spent p ∧ Spent q := by
  cases step with
  | @call c cycle request idle queued requested =>
      cases coherent with
      | cycling running session sound =>
          have pending := sound.pending
          have most := Bool.toNat_le c.fired
          refine ⟨?_, ?_, ?_, .inr rfl⟩
          · rintro ⟨-, unqueued, -⟩
            omega
          · rw [← Bool.toNat_eq_one]
            simp only
            omega
          · simp only
            omega
  | operate progress operation => cases operation <;> simp [Stage.calls] at calls
  | report observes report => cases report <;> simp [Stage.calls] at calls
  | release release => cases release <;> simp [Stage.calls] at calls
  | _ => simp [Stage.calls] at calls

def Exiting (stages : List Stage) : Prop :=
  ∀ s ∈ stages, s.before.circuit.stopped = true ∨ s.Exits

theorem Course.spends (course : Course p stages q) (coherent : Coherent p)
    (exiting : Exiting stages) :
    Coherent q ∧ ((stages.countP Stage.calls = 0 ∧ (Spent p → Spent q)) ∨
      (stages.countP Stage.calls = 1 ∧ ¬Spent p ∧ Spent q)) := by
  induction course with
  | refl => exact ⟨coherent, .inl ⟨rfl, id⟩⟩
  | @step stages q r now event course taken ih =>
      have step := step_of_step? taken
      obtain ⟨coherent, counted⟩ := ih fun s member => exiting s (List.mem_append_left _ member)
      have exits := exiting _ (List.mem_append_right _ (List.mem_singleton_self _))
      refine ⟨step.coherent coherent, ?_⟩
      rw [countP_snoc]
      cases calls : (⟨q, now, event, r⟩ : Stage).calls with
      | true =>
          obtain ⟨unspent, spent⟩ := step.spends coherent calls
          rcases counted with ⟨none, kept⟩ | ⟨-, -, before⟩
          · exact .inr ⟨by rw [none]; rfl, unspent ∘ kept, spent⟩
          · exact absurd before unspent
      | false =>
          have kept (spent : Spent q) : Spent r := step.spent coherent spent exits
          exact counted.imp (And.imp_right (kept ∘ ·)) (And.imp_right (And.imp_right kept))

theorem Course.countP_calls (course : Course p stages q) (coherent : Coherent p)
    (exiting : Exiting stages) :
    stages.countP Stage.calls ≤ 1 ∧ (Spent p → stages.countP Stage.calls = 0) := by
  rcases (course.spends coherent exiting).2 with ⟨none, -⟩ | ⟨one, unspent, -⟩
  · exact ⟨by omega, fun _ => none⟩
  · exact ⟨Nat.le_of_eq one, fun spent => absurd spent unspent⟩

def Stage.enters (s : Stage) : Bool :=
  match s.event with
  | .next => true
  | _ => false

def inCycle (stages : List Stage) : List Stage := stages.rtakeWhile fun s => !s.enters

theorem inCycle_snoc (stages : List Stage) (s : Stage) :
    inCycle (stages ++ [s]) = if s.enters then [] else inCycle stages ++ [s] := by
  cases enters : s.enters <;> simp [inCycle, enters]

theorem Stage.enters_iff {s : Stage} : s.enters = true ↔ s.event = .next := by
  unfold enters
  split <;> simp_all

theorem Course.cycleTally_inCycle (course : Course .new stages p) (cycling : p.Cycling) :
    CycleTally (inCycle stages) p := by
  induction course with
  | refl => simp [Cycling, Process.new] at cycling
  | @step stages q r now event course taken ih =>
      have step := step_of_step? taken
      rw [inCycle_snoc]
      by_cases next : event = .next
      · subst next
        exact cycleTally_begin step cycling
      · have before := (step.cycling cycling).resolve_left next
        have within : (⟨q, now, event, r⟩ : Stage).enters = false := by
          rw [Bool.eq_false_iff, Ne, Stage.enters_iff]
          exact next
        rw [within]
        exact (ih before).step course.coherent.1 before step

def inFlight? (p : Process) : Option String :=
  match p.progress with
  | .cycling cycle => cycle.inFlight?
  | _ => none

theorem spent_of_inFlight? {contentHash : String} (coherent : Coherent p)
    (flying : p.inFlight? = some contentHash) : Spent p := by
  cases coherent with
  | @cycling c cycle running session sound =>
      have flying : cycle.inFlight? = some contentHash := flying
      obtain ⟨had, unqueued⟩ := sound.alone flying
      exact ⟨had, unqueued, .inr (by simp [flying])⟩
  | _ => cases flying

def runNote (contentHash : String) : Except RunFailure Value → Note
  | .ok response => .runCompleted contentHash response
  | .error failure => .runFailed contentHash failure

theorem log_finishRun (c : Circuit) (now : Time.Instant) (contentHash : String)
    (answer : Except RunFailure Value) :
    ∃ notes : List Noted, (c.finishRun now contentHash answer).log =
      notes.foldl Log.Ring.append (c.log.append ⟨runNote contentHash answer, now⟩) := by
  cases answer with
  | error failure => exact ⟨[], rfl⟩
  | ok response =>
      unfold finishRun
      simp only
      split
      · rename_i bound exhausted
        exact ⟨[⟨.exhausted bound ⟨c.counters.executed, c.counters.completed + 1⟩, now⟩], rfl⟩
      · exact ⟨[], rfl⟩

/-- The run for a content hash is over, is in the log, and counts if it did not fail. -/
def Stage.Accounts (s : Stage) (contentHash : String) : Prop :=
  ∃ answer, s.event = .answered answer ∧
    (∃ notes : List Noted, s.after.circuit.log = notes.foldl Log.Ring.append
      (s.before.circuit.log.append ⟨runNote contentHash answer, s.now⟩)) ∧
    s.after.circuit.counters.completed =
      s.before.circuit.counters.completed + s.succeeds.toNat

theorem Step.accounts {contentHash : String} (step : Step now p event q) (coherent : Coherent p)
    (flying : p.inFlight? = some contentHash) :
    (⟨p, now, event, q⟩ : Stage).Accounts contentHash ∨ q.inFlight? = some contentHash := by
  have tally := step.tally coherent
  cases step with
  | operate | report | release | abandon | skip => exact .inr flying
  | forgo progress options begun =>
      obtain ⟨startable, -⟩ := begin_over begun
      obtain rfl := coherent.unstarted_of_isOpen (isOpen_of_startFault? startable)
      cases flying
  | request progress begun keyless | enter progress begun keyed =>
      obtain ⟨startable, -⟩ := begin_running begun
      obtain rfl := coherent.unstarted_of_isOpen (isOpen_of_startFault? startable)
      cases flying
  | call idle queued requested => exact absurd (idle.symm.trans flying) (by simp)
  | @answer c cycle other landing answer =>
      have flying : cycle.inFlight? = some contentHash := flying
      obtain rfl : other = contentHash := by simpa [landing] using flying
      exact .inl ⟨answer, rfl, log_finishRun .., tally.completed⟩
  | close settled drained | fail closed drained | end_ closed drained | pause closed drained =>
      exact absurd ((Cycle.drained_iff.mp drained).2.symm.trans flying) (by simp)
  | _ => cases flying

theorem Course.accounts {contentHash : String} (course : Course p stages q) (coherent : Coherent p)
    (flying : p.inFlight? = some contentHash) :
    (∃ s ∈ stages, s.Accounts contentHash) ∨ q.inFlight? = some contentHash := by
  induction course with
  | refl => exact .inr flying
  | step course taken ih =>
      rcases ih with ⟨s, member, accounts⟩ | flying
      · exact .inl ⟨s, List.mem_append_left _ member, accounts⟩
      · have coherent := (course.invariant Step.coherent coherent).1
        rcases (step_of_step? taken).accounts coherent flying with accounts | flying
        · exact .inl ⟨_, List.mem_append_right _ (List.mem_singleton_self _), accounts⟩
        · exact .inr flying

theorem answerable {contentHash : String} (flying : p.inFlight? = some contentHash)
    (now : Time.Instant) (answer : Except RunFailure Value) :
    ∃ q, p.step? now (.answered answer) = some q := by
  obtain ⟨c, progress⟩ := p
  cases progress with
  | cycling cycle => exact ⟨_, step?_of_step (.answer flying answer)⟩
  | _ => cases flying

theorem Step.settled_of_stopped (step : Step now p event q) (stopped : p.circuit.stopped = true) :
    (event = .next → ¬q.Cycling) ∧ ∀ o ∈ q.observing, o ∈ p.observing := by
  have halts (next : event = .next) : ¬q.Cycling ∧ q.observing = [] := by
    subst next
    cases step with
    | halt pause? => exact ⟨by simp [Cycling, finish], rfl⟩
    | begin pause? going => simp [going] at stopped
    | operate progress operation => cases operation
    | report observes report => cases report
    | release release => cases release
  refine ⟨fun next => (halts next).1, ?_⟩
  by_cases next : event = .next
  · simp [(halts next).2]
  · exact step.observing next

/-- From the moment at which a circuit is asked to stop, it remains so, no cycle begins and nothing further
is observed. The cycle in progress makes its one call if it did not before, there is none outside a cycle,
and the call that the executor works on is brought to its end. -/
theorem stop_is_final (course : Course .new earlier p) (stopped : p.circuit.stopped = true)
    (later : Course p stages q) :
    (∀ s ∈ stages, s.after.circuit.stopped = true ∧ (s.event = .next → ¬s.after.Cycling) ∧
      ∀ o ∈ s.after.observing, o ∈ s.before.observing) ∧
    (p.Cycling → (inCycle earlier ++ stages).countP Stage.calls ≤ 1) ∧
    (¬p.Cycling → ∀ s ∈ stages, s.calls = false ∧ ¬s.after.Cycling) ∧
    ∀ contentHash, p.inFlight? = some contentHash →
      (∀ s ∈ stages, s.calls = false) ∧
      ((∃ s ∈ stages, s.Accounts contentHash) ∨
        q.inFlight? = some contentHash ∧
          ∀ now answer, ∃ r, q.step? now (.answered answer) = some r) := by
  have coherent := course.coherent.1
  obtain ⟨-, remains⟩ := later.stopped stopped
  have exiting : Exiting stages := fun s member => .inl (remains s member).1
  obtain ⟨once, spent⟩ := later.countP_calls coherent exiting
  have silent (spending : Spent p) : ∀ s ∈ stages, s.calls = false := by
    simpa only [List.countP_eq_zero, Bool.not_eq_true] using spent spending
  have settled {s : Stage} (member : s ∈ stages) :=
    (later.taken member).settled_of_stopped (remains s member).1
  refine ⟨fun s member => ⟨(remains s member).2, settled member⟩, ?_, ?_, ?_⟩
  · intro cycling
    have tally := course.cycleTally_inCycle cycling
    rw [List.countP_append]
    by_cases called : (inCycle earlier).countP Stage.calls = 0
    · omega
    · -- The cycle has had its run: nothing is queued and nothing can be claimed.
      have most := Bool.toNat_le ((inCycle earlier).any Stage.fires)
      have handed := tally.handed
      have fired := tally.fired cycling
      obtain ⟨cycle, progress⟩ := cycling
      have queued : p.queued = cycle.queued := by simp [Process.queued, progress]
      have spending : Spent p := by
        unfold Spent
        rw [progress]
        refine ⟨?_, by omega, .inl stopped⟩
        rw [fired, ← Bool.toNat_eq_one]
        omega
      rw [spent spending]
      omega
  · intro still
    have outside := (later.not_cycling still fun s member => (settled member).1).2
    intro s member
    exact ⟨silent (spent_of_stopped stopped still) s member, (outside s member).2⟩
  · intro contentHash flying
    refine ⟨silent (spent_of_inFlight? coherent flying), ?_⟩
    rcases later.accounts coherent flying with accounted | flying
    · exact .inl accounted
    · exact .inr ⟨flying, answerable flying⟩

def sampleStopping : List Event := sampleStart ++ [.next, .matched 0, .stop]

def sampleStopped : List Event :=
  [.matched 0, .call, .unmatched 0, .matched 0, .abandon, .answered (.ok .null), .close, .leave]

theorem sampleStopped_is_final :
    ∃ earlier p stages q, Course .new earlier p ∧ p.circuit.stopped = true ∧ Course p stages q ∧
      (inCycle earlier ++ stages).countP Stage.calls = 1 ∧ q.circuit.counters.completed = 1 ∧
      ∀ s ∈ stages, s.event = .next → ¬s.after.Cycling := by
  have followed : (sample sampleStopping).any fun before =>
      before.2.circuit.stopped && before.2.Cycling &&
        (before.2.follow (sampleStopped.map fun event => (⟨0, 0⟩, event))).any fun run =>
          run.1.any Stage.calls && run.2.circuit.counters.completed = 1 := by decide +kernel
  simp only [Option.any_eq_true, Bool.and_eq_true, decide_eq_true_eq, List.any_eq_true] at followed
  obtain ⟨⟨earlier, p⟩, before, ⟨stopped, cycling⟩, ⟨stages, q⟩, after, called, completed⟩ :=
    followed
  have course := course_of_follow before
  have later := course_of_follow after
  obtain ⟨remains, once, -, -⟩ := stop_is_final course stopped later
  have some : 0 < (inCycle earlier ++ stages).countP Stage.calls := by
    obtain ⟨s, member, calls⟩ := called
    exact List.countP_pos_iff.mpr ⟨s, List.mem_append_right _ member, calls⟩
  exact ⟨earlier, p, stages, q, course, stopped, later, Nat.le_antisymm (once cycling) some,
    completed, fun s member => (remains s member).2.1⟩

end Tripwire.Circuit.Process
