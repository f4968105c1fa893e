import Tripwire.Proofs.Circuit.Bounds

/-!
# One life

A circuit that was not started is armed as soon as it has conditions and actions. One start at most gets
through, and it leads to the halt from which no way leads back. Starts that are refused leave a line in
the log only, and a start that gets no session ends before anything is observed.
-/
namespace Tripwire.Circuit

variable {c c' : Circuit} {now : Time.Instant} {event : Event}

def readiness (c : Circuit) : Status :=
  if c.watchers.isEmpty || c.script.isEmpty then .idle else .armed

theorem refresh_of_isOpen (opened : c.isOpen) : c.refresh = { c with status := c.readiness } := by
  rcases opened with status | status <;> simp [refresh, readiness, status]

theorem Operation.status_eq_readiness (operation : Operation now c event c') (opened : c.isOpen)
    (ready : c.status = c.readiness) : c'.status = c'.readiness := by
  cases operation with
  | setConditions watchers =>
      unfold Circuit.setConditions
      rw [refresh_of_isOpen (c := { c with watchers, satisfied := .empty }) opened]
      rfl
  | setActions actions =>
      rcases setActions_cases c now actions with ⟨script, same⟩ | ⟨fault, same⟩
      · rw [same, refresh_of_isOpen (c := { c with script }) opened]
        rfl
      · rw [same]
        exact ready
  | _ => exact ready

def suffers (c : Circuit) : Fault → Bool
  | .noConditions => c.watchers.isEmpty
  | .noActions => c.script.isEmpty
  | .alreadyRunning => c.status = .running
  | .halted => c.status = .halted
  | _ => false

theorem startFault?_eq_find? (c : Circuit) :
    c.startFault? = [.noConditions, .noActions, .alreadyRunning, .halted].find? c.suffers := by
  unfold startFault?
  cases unwatched : c.watchers.isEmpty with
  | true => simp [suffers, unwatched]
  | false =>
      cases scriptless : c.script.isEmpty with
      | true => simp [suffers, unwatched, scriptless]
      | false => cases status : c.status <;> simp [suffers, unwatched, scriptless, status]

theorem begin_eq_refused_iff {fault : Fault} :
    (c.begin now).2 = .refused fault ↔ c.startFault? = some fault := by
  constructor
  · intro refused
    have begun : c.begin now = ((c.begin now).1, .refused fault) := by rw [← refused]
    exact (begin_refused begun).1
  · intro faulty
    simp [begin, faulty]

namespace Process

variable {p q : Process} {stages : List Stage}

def Stage.beginning? (s : Stage) : Option Beginning :=
  match s.event with
  | .start _ => some (s.before.circuit.begin s.now).2
  | _ => none

def Stage.launches (s : Stage) : Bool := s.beginning? = some .running

def Stage.passes (s : Stage) : Bool := s.launches || s.beginning? = some .over

def started (p : Process) : Bool :=
  match p.progress with
  | .unstarted => false
  | _ => true

theorem started_eq_false_iff : p.started = false ↔ p.progress = .unstarted := by
  unfold started
  split <;> simp_all

theorem started_openSession (c : Circuit) (now : Time.Instant) (options : Options) (key : String) :
    (openSession c now options key).started = true := by
  rcases openSession_cases c now options key with ⟨-, opened⟩ | ⟨fault, refused⟩
  · rw [opened]
    rfl
  · rw [refused]
    rfl

theorem Step.started (step : Step now p event q) (coherent : Coherent p) :
    q.started.toNat = p.started.toNat + (⟨p, now, event, q⟩ : Stage).passes.toNat := by
  cases step with
  | operate progress operation =>
      cases operation with
      | refuse options faulty =>
          simp [Stage.passes, Stage.launches, Stage.beginning?, begin_eq_refused_iff.mpr faulty]
          rfl
      | _ => rfl
  | forgo progress options begun =>
      obtain ⟨startable, -⟩ := begin_over begun
      obtain rfl := coherent.unstarted_of_isOpen (isOpen_of_startFault? startable)
      simp [Process.started, Stage.passes, Stage.launches, Stage.beginning?, begun]
  | request progress begun keyless =>
      obtain ⟨startable, -⟩ := begin_running begun
      obtain rfl := coherent.unstarted_of_isOpen (isOpen_of_startFault? startable)
      simp [Process.started, Stage.passes, Stage.launches, Stage.beginning?, begun]
  | enter progress begun keyed =>
      obtain ⟨startable, -⟩ := begin_running begun
      obtain rfl := coherent.unstarted_of_isOpen (isOpen_of_startFault? startable)
      rw [started_openSession]
      simp [Process.started, Stage.passes, Stage.launches, Stage.beginning?, begun]
  | issue contentHash options identity =>
      rw [started_openSession]
      rfl
  | report observes report => cases report <;> rfl
  | release release => cases release <;> rfl
  | _ => rfl

theorem Course.started (course : Course .new stages p) :
    stages.countP Stage.passes = p.started.toNat := by
  induction course with
  | refl => rfl
  | step course taken ih =>
      rw [countP_snoc, ih, (step_of_step? taken).started course.coherent.1]

theorem Course.status_eq_readiness (course : Course .new stages p) (unstarted : p.started = false) :
    p.circuit.status = p.circuit.readiness := by
  induction course with
  | refl => rfl
  | @step stages q r now event course taken ih =>
      have step := step_of_step? taken
      have coherent := course.coherent.1
      have counted := step.started coherent
      have before : q.started = false := by
        cases begun : q.started with
        | false => rfl
        | true => simp [begun, unstarted] at counted; omega
      have ready := ih before
      cases step with
      | operate progress operation =>
          cases coherent with
          | unstarted opened => exact operation.status_eq_readiness opened ready
          | _ => simp [Process.started] at before
      | enter | issue => simp [started_openSession] at unstarted
      | _ => simp [Process.started, finish] at unstarted

theorem Step.launches (step : Step now p event q) (coherent : Coherent p)
    (still : p.circuit.status ≠ .running) (running : q.circuit.status = .running) :
    (⟨p, now, event, q⟩ : Stage).launches = true := by
  cases step with
  | @operate c c' _ progress operation =>
      by_cases opened : c.isOpen
      · rcases operation.isOpen opened with status | status <;> simp [status] at running
      · exact absurd ((operation.status opened).symm.trans running) still
  | forgo progress options begun =>
      obtain ⟨-, -, log, rfl⟩ := begin_over begun
      cases running
  | request progress begun keyless => simp [Stage.launches, Stage.beginning?, begun]
  | enter progress begun keyed => simp [Stage.launches, Stage.beginning?, begun]
  -- In all other steps a start has got through already.
  | issue | deny => cases coherent with | opening status => exact absurd status still
  | halt | begin => cases coherent with | between status => exact absurd status still
  | _ => cases coherent with | cycling status => exact absurd status still

theorem Coherent.ended_of_halted (coherent : Coherent p) (halted : p.circuit.status = .halted) :
    ∃ result, p.progress = .ended result := by
  cases coherent with
  | unstarted opened => rcases opened with status | status <;> simp [status] at halted
  | ended => exact ⟨_, rfl⟩
  | opening running | between running | cycling running => simp [running] at halted

theorem Coherent.halted_of_ended {result : Except StartError PUnit} (coherent : Coherent p)
    (ended : p.progress = .ended result) : p.circuit.status = .halted := by
  cases coherent with
  | ended halted => exact halted
  | _ => cases ended

theorem Step.ended {result : Except StartError PUnit} (step : Step now p event q)
    (coherent : Coherent p) (ended : p.progress = .ended result) : q.progress = .ended result := by
  cases step with
  | operate progress operation => exact ended
  | forgo progress options begun =>
      obtain ⟨startable, -⟩ := begin_over begun
      obtain rfl := coherent.unstarted_of_isOpen (isOpen_of_startFault? startable)
      cases ended
  | request progress begun keyless | enter progress begun keyed =>
      obtain ⟨startable, -⟩ := begin_running begun
      obtain rfl := coherent.unstarted_of_isOpen (isOpen_of_startFault? startable)
      cases ended
  | _ => cases ended

theorem Course.ended {result : Except StartError PUnit} (course : Course p stages q)
    (coherent : Coherent p) (ended : p.progress = .ended result) :
    Coherent q ∧ q.progress = .ended result := by
  induction course with
  | refl => exact ⟨coherent, ended⟩
  | step course taken ih =>
      obtain ⟨coherent, ended⟩ := ih
      have step := step_of_step? taken
      exact ⟨step.coherent coherent, step.ended coherent ended⟩

def Stage.sessionless (s : Stage) : Bool :=
  match s.event with
  | .start options => s.launches && options.publicKey?.any fun key => !Signer.isPublicKey key
  | .issued (.ok identity) => !Signer.isPublicKey identity.publicKey
  | .issued (.error _) => true
  | _ => false

theorem openSession_malformed {key : String} (malformed : Signer.isPublicKey key = false)
    (c : Circuit) (now : Time.Instant) (options : Options) :
    (openSession c now options key).progress =
      .ended (.error (.configuration (.malformedPublicKey key))) := by
  simp [openSession, Signer.checkPublicKey, malformed, finish]

theorem Step.sessionless (step : Step now p event q)
    (sessionless : (⟨p, now, event, q⟩ : Stage).sessionless = true) :
    ∃ error, q.progress = .ended (.error error) ∧ ∀ failure, error ≠ .execution failure := by
  cases step with
  | operate progress operation =>
      cases operation with
      | refuse options faulty =>
          simp [Stage.sessionless, Stage.launches, Stage.beginning?,
            begin_eq_refused_iff.mpr faulty] at sessionless
      | _ => simp [Stage.sessionless] at sessionless
  | forgo progress options begun =>
      simp [Stage.sessionless, Stage.launches, Stage.beginning?, begun] at sessionless
  | request progress begun keyless =>
      simp [Stage.sessionless, keyless] at sessionless
  | @enter c c' options key progress begun keyed =>
      have malformed : Signer.isPublicKey key = false := by
        simpa [Stage.sessionless, Stage.launches, Stage.beginning?, begun, keyed] using sessionless
      exact ⟨_, openSession_malformed malformed .., by simp⟩
  | issue contentHash options identity =>
      have malformed : Signer.isPublicKey identity.publicKey = false := by
        simpa [Stage.sessionless] using sessionless
      exact ⟨_, openSession_malformed malformed .., by simp⟩
  | deny contentHash options refusal => exact ⟨_, rfl, by simp⟩
  | report observes report => cases report <;> simp [Stage.sessionless] at sessionless
  | release release => cases release <;> simp [Stage.sessionless] at sessionless
  | _ => simp [Stage.sessionless] at sessionless

theorem Step.cycling (step : Step now p event q) (cycling : q.Cycling) :
    event = .next ∨ p.Cycling := by
  cases step with
  | operate progress operation => exact .inr cycling
  | enter | issue => exact absurd cycling not_cycling_openSession
  | begin pause? going => exact .inl rfl
  | report | release | abandon | call | answer | skip | close => exact .inr ⟨_, rfl⟩
  | _ => simp [Cycling, finish] at cycling

theorem Course.not_cycling (course : Course p stages q) (still : ¬p.Cycling)
    (quiet : ∀ s ∈ stages, s.event = .next → ¬s.after.Cycling) :
    ¬q.Cycling ∧ ∀ s ∈ stages, ¬s.before.Cycling ∧ ¬s.after.Cycling := by
  induction course with
  | refl => exact ⟨still, by simp⟩
  | @step stages q r now event course taken ih =>
      obtain ⟨before, earlier⟩ := ih fun s member => quiet s (List.mem_append_left _ member)
      have after : ¬r.Cycling := by
        intro cycling
        rcases (step_of_step? taken).cycling cycling with next | within
        · exact quiet _ (List.mem_append_right _ (List.mem_singleton_self _)) next cycling
        · exact before within
      refine ⟨after, ?_⟩
      intro s member
      rcases List.mem_append.mp member with early | newest
      · exact earlier s early
      · rw [List.mem_singleton.mp newest]
        exact ⟨before, after⟩

theorem Course.uncycled (course : Course .new stages p) (quiet : ∀ s ∈ stages, s.event ≠ .next) :
    ¬p.Cycling ∧ ∀ s ∈ stages, ¬s.before.Cycling ∧ ¬s.after.Cycling := by
  have still : ¬(new : Process).Cycling := by simp [Cycling, new]
  exact course.not_cycling still fun s member next => absurd next (quiet s member)

theorem Course.counters_eq_zero (course : Course .new stages p)
    (quiet : ∀ s ∈ stages, s.event ≠ .next) : p.circuit.counters = .zero := by
  obtain ⟨still, earlier⟩ := course.uncycled quiet
  have account := course.account
  have uncalled : stages.countP Stage.calls = 0 := by
    rw [List.countP_eq_zero]
    intro s member calls
    exact (earlier s member).1 ((course.taken member).cycling_of_calls calls)
  have unqueued : p.queued = 0 := by
    unfold Process.queued
    split
    · rename_i cycle cycling
      exact absurd ⟨cycle, cycling⟩ still
    · rfl
  have executed := account.executed
  have completed := account.completed
  have claimed := account.claimed
  have called := account.called
  have same : p.circuit.counters = ⟨p.circuit.counters.executed, p.circuit.counters.completed⟩ := rfl
  rw [same, Run.Counters.zero, Run.Counters.mk.injEq]
  omega

theorem Course.of_sessionless (course : Course .new stages p)
    (sessionless : ∃ s ∈ stages, s.sessionless = true) :
    ∃ error, p.progress = .ended (.error error) ∧ ∀ failure, error ≠ .execution failure := by
  obtain ⟨s, member, sessionless⟩ := sessionless
  induction course with
  | refl => cases member
  | @step stages q r now event course taken ih =>
      have step := step_of_step? taken
      rcases List.mem_append.mp member with earlier | newest
      · obtain ⟨error, ended, other⟩ := ih earlier
        exact ⟨error, step.ended course.coherent.1 ended, other⟩
      · rw [List.mem_singleton.mp newest] at sessionless
        exact step.sessionless sessionless

theorem Course.quiet_of_sessionless (course : Course .new stages p)
    (sessionless : ∃ s ∈ stages, s.sessionless = true) : ∀ s ∈ stages, s.event ≠ .next := by
  obtain ⟨error, ended, other⟩ := course.of_sessionless sessionless
  intro s member next
  rcases (course.looped ⟨s, member, next⟩).result ended with same | ⟨failure, same⟩
  · cases same
  · exact other failure (by injection same)

theorem Course.countP_launches (course : Course .new stages p) :
    stages.countP Stage.launches ≤ 1 := by
  have passed : stages.countP Stage.passes ≤ 1 := by
    rw [course.started]
    exact Bool.toNat_le _
  have fewer : stages.countP Stage.launches ≤ stages.countP Stage.passes :=
    List.countP_mono_left fun s _ launches => by simp [Stage.passes, launches]
  exact Nat.le_trans fewer passed

/-- Before a start got through, the status says whether there are conditions and actions. One start at
most makes the circuit run, and a halted circuit stays halted. A start that is refused has the first
fault that applies, and leaves one entry in the log only. If a start gets no session, the circuit halts
without having observed or run anything. -/
theorem circuit_lives_once (course : Course .new stages p) :
    ((∀ s ∈ stages, s.passes = false) → p.circuit.status =
      if p.circuit.watchers.isEmpty || p.circuit.script.isEmpty then .idle else .armed) ∧
    stages.countP Stage.launches ≤ 1 ∧
    (∀ s ∈ stages, s.before.circuit.status ≠ .running → s.after.circuit.status = .running →
      s.launches = true) ∧
    (p.circuit.status = .halted →
      ∀ later q, Course p later q → q.circuit.status = .halted) ∧
    (∀ now fault, (p.circuit.begin now).2 = .refused fault ↔
      [.noConditions, .noActions, .alreadyRunning, .halted].find? p.circuit.suffers = some fault) ∧
    (∀ now options fault, (p.circuit.begin now).2 = .refused fault →
      p.step? now (.start options) =
        some ⟨{ p.circuit with log := p.circuit.log.append ⟨.startRefused fault, now⟩ }, p.progress⟩ ∧
      (Note.startRefused fault).category = .error) ∧
    ((∃ s ∈ stages, s.sessionless = true) →
      p.circuit.status = .halted ∧ p.circuit.counters = ⟨0, 0⟩ ∧
      (∃ error, p.progress = .ended (.error error) ∧ ∀ failure, error ≠ .execution failure) ∧
      ∀ s ∈ stages, s.calls = false ∧ ¬s.before.Cycling ∧ ¬s.after.Cycling) := by
  refine ⟨?_, course.countP_launches, ?_, ?_, ?_, ?_, ?_⟩
  · intro unpassed
    apply course.status_eq_readiness
    have none : stages.countP Stage.passes = 0 := by
      rw [List.countP_eq_zero]
      intro s member passes
      simp [unpassed s member] at passes
    rw [course.started] at none
    simpa using none
  · intro s member
    exact (course.taken member).launches (course.coherent.2 s member).1
  · intro halted later q continued
    obtain ⟨result, ended⟩ := course.coherent.1.ended_of_halted halted
    obtain ⟨coherent, ended⟩ := continued.ended course.coherent.1 ended
    exact coherent.halted_of_ended ended
  · intro now fault
    rw [begin_eq_refused_iff, startFault?_eq_find?]
  · intro now options fault refused
    have faulty := begin_eq_refused_iff.mp refused
    exact ⟨step?_of_step (.operate p.progress (.refuse options faulty)), rfl⟩
  · intro sessionless
    obtain ⟨error, ended, other⟩ := course.of_sessionless sessionless
    have quiet := course.quiet_of_sessionless sessionless
    refine ⟨course.coherent.1.halted_of_ended ended, course.counters_eq_zero quiet,
      ⟨error, ended, other⟩, ?_⟩
    intro s member
    obtain ⟨before, after⟩ := (course.uncycled quiet).2 s member
    refine ⟨?_, before, after⟩
    cases calls : s.calls with
    | false => rfl
    | true => exact absurd ((course.taken member).cycling_of_calls calls) before

def sampleDenied : List Event :=
  [.start ⟨none, .null, []⟩, .setConditions [⟨0, "door"⟩],
    .setActions [.fetch ⟨1, "https://example.org", "door", "", none, [], []⟩],
    .start ⟨none, .null, []⟩, .start ⟨none, .null, []⟩, .setConditions [⟨1, "window"⟩],
    .issued (.error ⟨"closed"⟩), .start ⟨none, .null, []⟩]

theorem sampleDenied_lives_once :
    ∃ stages p, Course .new stages p ∧ stages.countP (·.beginning?.isSome) = 4 ∧
      stages.countP Stage.launches = 1 ∧ p.circuit.status = .halted ∧
      p.circuit.counters = ⟨0, 0⟩ ∧ ∀ s ∈ stages, s.calls = false := by
  have followed : (sample sampleDenied).any fun run =>
      run.1.countP (·.beginning?.isSome) = 4 && run.1.any Stage.launches &&
        run.1.any Stage.sessionless := by decide +kernel
  simp only [Option.any_eq_true, Bool.and_eq_true, decide_eq_true_eq, List.any_eq_true] at followed
  obtain ⟨⟨stages, p⟩, sampled, ⟨starts, launched⟩, denied⟩ := followed
  have course := course_of_follow sampled
  obtain ⟨-, once, -, -, -, -, sessionless⟩ := circuit_lives_once course
  obtain ⟨halted, uncounted, -, quiet⟩ := sessionless denied
  have some : 0 < stages.countP Stage.launches := List.countP_pos_iff.mpr launched
  exact ⟨stages, p, course, starts, Nat.le_antisymm once some, halted, uncounted,
    fun s member => (quiet s member).1⟩

end Process
end Tripwire.Circuit
