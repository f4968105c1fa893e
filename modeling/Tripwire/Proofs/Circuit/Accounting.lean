import Tripwire.Proofs.Circuit.Tally

/-!
# No run is lost, and none is made twice

Along a course the counters of a circuit, the queue of its cycle, the work of the executor and the kept
failure always account for the same runs. When a start ends, nothing is queued or worked on any more, so
the counters are the numbers of claims, calls and successes, and the result says whether a run failed.
-/
namespace Tripwire.Circuit.Process

variable {p q : Process} {now : Time.Instant} {event : Event} {stages : List Stage}

structure Account (stages : List Stage) (p : Process) : Prop where
  executed : p.circuit.counters.executed = stages.countP Stage.claims
  claimed : stages.countP Stage.claims = stages.countP Stage.calls + p.queued
  called : stages.countP Stage.calls =
    stages.countP Stage.succeeds + stages.countP Stage.fails + p.flying
  completed : p.circuit.counters.completed = stages.countP Stage.succeeds
  failures : stages.countP Stage.fails = p.failed?.isSome.toNat
  failed : ∀ failure, p.failed? = some failure ↔ ∃ s ∈ stages, s.failure? = some failure
  last : stages.Pairwise fun s t => s.fails = true → t.calls = false

theorem countP_snoc (P : Stage → Bool) (stages : List Stage) (s : Stage) :
    (stages ++ [s]).countP P = stages.countP P + (P s).toNat := by
  cases shown : P s <;> simp [shown]

theorem Step.unfailed (step : Step now p event q) (coherent : Coherent p)
    (busy : (⟨p, now, event, q⟩ : Stage).calls = true ∨ (⟨p, now, event, q⟩ : Stage).fails = true) :
    p.failed? = none := by
  cases step with
  | call idle queued requested =>
      cases coherent with
      | cycling _ _ sound => exact sound.unfailed (Nat.add_pos_left queued _)
  | answer flying answer =>
      cases coherent with
      | cycling _ _ sound => exact sound.unfailed (by simp [Cycle.flying, flying])
  | operate progress operation =>
      cases operation <;> simp [Stage.calls, Stage.fails, Stage.failure?] at busy
  | report observes report =>
      cases report <;> simp [Stage.calls, Stage.fails, Stage.failure?] at busy
  | release release =>
      cases release <;> simp [Stage.calls, Stage.fails, Stage.failure?] at busy
  | _ => simp [Stage.calls, Stage.fails, Stage.failure?] at busy

theorem account_new : Account [] .new := by
  constructor <;> first | rfl | simp [failed?, Process.new, Circuit.new]

theorem Account.step (account : Account stages p) (coherent : Coherent p)
    (step : Step now p event q) : Account (stages ++ [⟨p, now, event, q⟩]) q := by
  have tally := step.tally coherent
  obtain ⟨executed, completed, queued, flying, failed⟩ := tally
  simp only at executed completed queued flying failed
  have calm := step.unfailed coherent
  generalize (⟨p, now, event, q⟩ : Stage) = s at *
  constructor
  · rw [countP_snoc, executed, account.executed]
  · have claimed := account.claimed
    rw [countP_snoc, countP_snoc]
    omega
  · have called := account.called
    rw [countP_snoc, countP_snoc, countP_snoc]
    omega
  · rw [countP_snoc, completed, account.completed]
  · rw [countP_snoc, account.failures, failed]
    cases fails : s.fails with
    | true =>
        have some : s.failure?.isSome = true := fails
        simp [calm (.inr fails), some]
    | false =>
        have none : s.failure? = none := by simpa [Stage.fails] using fails
        simp [none]
  · intro failure
    rw [failed]
    simp only [List.mem_append, List.mem_singleton, or_and_right, exists_or, exists_eq_left,
      ← account.failed]
    cases fails : s.failure? with
    | none => simp
    | some other => simp [calm (.inr (by simp [Stage.fails, fails]))]
  · rw [List.pairwise_append]
    refine ⟨account.last, List.pairwise_singleton _ _, ?_⟩
    intro earlier member s' same fails
    rw [List.mem_singleton] at same
    subst same
    cases calls : s'.calls with
    | false => rfl
    | true =>
        -- A failure is kept until the end, and nothing is called while one is.
        obtain ⟨failure, failure_eq⟩ := Option.isSome_iff_exists.mp fails
        have kept := (account.failed failure).mpr ⟨earlier, member, failure_eq⟩
        rw [calm (.inl calls)] at kept
        cases kept

theorem Course.account (course : Course .new stages p) : Account stages p := by
  induction course with
  | refl => exact account_new
  | step course taken ih => exact ih.step course.coherent.1 (step_of_step? taken)

def Looped (p : Process) : Prop :=
  match p.progress with
  | .between _ | .cycling _ | .ended (.ok _) | .ended (.error (.execution _)) => True
  | _ => False

theorem Step.looped (step : Step now p event q) (coherent : Coherent p)
    (looped : p.Looped ∨ event = .next) : q.Looped := by
  cases step with
  | operate progress operation =>
      rcases looped with looped | rfl
      · exact looped
      · cases operation
  | forgo progress options begun => trivial
  | request progress begun keyless =>
      obtain ⟨startable, -⟩ := begin_running begun
      obtain rfl := coherent.unstarted_of_isOpen (isOpen_of_startFault? startable)
      simp [Looped] at looped
  | enter progress begun keyed =>
      obtain ⟨startable, -⟩ := begin_running begun
      obtain rfl := coherent.unstarted_of_isOpen (isOpen_of_startFault? startable)
      simp [Looped] at looped
  | issue contentHash options identity => simp [Looped] at looped
  | deny contentHash options refusal => simp [Looped] at looped
  | _ => trivial

theorem Course.looped (course : Course .new stages p) (entered : ∃ s ∈ stages, s.event = .next) :
    p.Looped := by
  induction course with
  | refl => simp at entered
  | step course taken ih =>
      apply (step_of_step? taken).looped course.coherent.1
      obtain ⟨s, member, next⟩ := entered
      rcases List.mem_append.mp member with earlier | newest
      · exact .inl (ih ⟨s, earlier, next⟩)
      · rw [List.mem_singleton.mp newest] at next
        exact .inr next

def result? (p : Process) : Option (Except StartError PUnit) :=
  match p.progress with
  | .ended result => some result
  | _ => none

theorem result?_eq_some_iff {result : Except StartError PUnit} :
    p.result? = some result ↔ p.progress = .ended result := by
  unfold result?
  split <;> simp_all

theorem Looped.result {result : Except StartError PUnit} (looped : p.Looped)
    (ended : p.progress = .ended result) :
    result = .ok () ∨ ∃ failure, result = .error (.execution failure) := by
  unfold Looped at looped
  rw [ended] at looped
  cases result with
  | ok _ => exact .inl rfl
  | error e =>
      cases e with
      | execution failure => exact .inr ⟨failure, rfl⟩
      | _ => cases looped

theorem failed?_eq_some_iff {result : Except StartError PUnit} {failure : RunFailure}
    (ended : p.progress = .ended result) :
    p.failed? = some failure ↔ result = .error (.execution failure) := by
  unfold failed?
  rw [ended]
  cases result with
  | ok _ => simp
  | error e => cases e <;> simp

/-- When a start has ended, every run that fired was handed to the executor and answered. At most the
last one failed, and then the start ended with its failure. -/
theorem ended_accounts_for_runs {result : Except StartError PUnit} (course : Course .new stages p)
    (ended : p.progress = .ended result) :
    p.circuit.counters.executed = stages.countP Stage.claims ∧
    p.circuit.counters.executed = stages.countP Stage.calls ∧
    p.circuit.counters.completed = stages.countP Stage.succeeds ∧
    stages.countP Stage.fails ≤ 1 ∧
    stages.Pairwise (fun s t => s.fails = true → t.calls = false) ∧
    (∀ failure, result = .error (.execution failure) ↔
      ∃ s ∈ stages, s.event = .answered (.error failure)) ∧
    ((∃ failure, result = .error (.execution failure)) →
      p.circuit.counters.executed = p.circuit.counters.completed + 1) ∧
    (result = .ok () → p.circuit.counters.executed = p.circuit.counters.completed) ∧
    ((∃ s ∈ stages, s.event = .next) →
      result = .ok () ∨ ∃ failure, result = .error (.execution failure)) := by
  have account := course.account
  -- Nothing is queued or worked on any more.
  have claimed : stages.countP Stage.claims = stages.countP Stage.calls := by
    simpa [queued, ended] using account.claimed
  have called : stages.countP Stage.calls =
      stages.countP Stage.succeeds + p.failed?.isSome.toNat := by
    simpa [flying, ended, account.failures] using account.called
  have executed : p.circuit.counters.executed =
      p.circuit.counters.completed + p.failed?.isSome.toNat := by
    rw [account.executed, account.completed, claimed, called]
  refine ⟨account.executed, account.executed.trans claimed, account.completed, ?_, account.last,
    ?_, ?_, ?_, fun entered => (course.looped entered).result ended⟩
  · rw [account.failures]
    exact Bool.toNat_le _
  · intro failure
    rw [← failed?_eq_some_iff ended, account.failed]
    simp only [Stage.failure?_eq_some_iff]
  · rintro ⟨failure, failed⟩
    rw [executed, (failed?_eq_some_iff ended).mpr failed]
    rfl
  · rintro rfl
    have unfailed : p.failed? = none := by simp [failed?, ended]
    rw [executed, unfailed]
    rfl

def sampleRuns : List Event :=
  sampleStart ++
    [.next, .matched 0, .call, .settled 0 none, .answered (.ok .null), .close, .leave,
      .next, .unmatched 0, .matched 0, .matched 0, .call, .stop, .abandon,
      .answered (.error (.unavailable "down")), .close, .leave]

theorem sampleRuns_accounted :
    ∃ stages p failure, Course .new stages p ∧ p.progress = .ended (.error (.execution failure)) ∧
      p.circuit.counters.executed = 2 ∧ p.circuit.counters.completed = 1 ∧
      stages.countP Stage.claims = 2 ∧ stages.countP Stage.calls = 2 ∧
      stages.countP Stage.succeeds = 1 := by
  have followed : (sample sampleRuns).any fun run =>
      run.2.circuit.counters.executed = 2 &&
        run.2.result?.isSome && run.2.failed? = some (.unavailable "down") := by decide +kernel
  simp only [Option.any_eq_true, Bool.and_eq_true, decide_eq_true_eq] at followed
  obtain ⟨⟨stages, p⟩, sampled, ⟨executed, ended⟩, failing⟩ := followed
  obtain ⟨result, ended⟩ := Option.isSome_iff_exists.mp ended
  have course := course_of_follow sampled
  have ended := result?_eq_some_iff.mp ended
  obtain rfl := (failed?_eq_some_iff ended).mp failing
  obtain ⟨claims, calls, succeeds, -, -, -, failed, -⟩ := ended_accounts_for_runs course ended
  have completed := failed ⟨_, rfl⟩
  simp only at executed
  exact ⟨stages, p, _, course, ended, executed, by omega, by omega, by omega, by omega⟩

end Tripwire.Circuit.Process
