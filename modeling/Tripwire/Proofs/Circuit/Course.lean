import Tripwire.Proofs.Circuit.Step

/-!
# Courses of events

A course is a sequence of steps that were taken one after the other, in whatever order the environment
brought the events about. What is said of every run of a circuit is said of the courses that begin with
a new process. `Coherent` is what such a process keeps, by how far its start has come.
-/
namespace Tripwire.Circuit

variable {c : Circuit} {now : Time.Instant} {event : Event}

namespace Process

variable {p q : Process}

structure Stage where
  before : Process
  now : Time.Instant
  event : Event
  after : Process

/-- The steps by which a process has become another one, the earliest first. -/
inductive Course (p : Process) : List Stage → Process → Prop where
  | refl : Course p [] p
  | step {stages : List Stage} {q r : Process} {now : Time.Instant} {event : Event}
      (course : Course p stages q) (taken : q.step? now event = some r) :
      Course p (stages ++ [⟨q, now, event, r⟩]) r

namespace Course

theorem trans {r : Process} {first second : List Stage} (left : Course p first q)
    (right : Course q second r) : Course p (first ++ second) r := by
  induction right with
  | refl => simpa using left
  | step _ taken ih => simpa [← List.append_assoc] using Course.step ih taken

theorem taken {stages : List Stage} (course : Course p stages q) {s : Stage} (member : s ∈ stages) :
    Step s.now s.before s.event s.after := by
  induction course with
  | refl => cases member
  | step _ taken ih =>
      rcases List.mem_append.mp member with earlier | newest
      · exact ih earlier
      · rw [List.mem_singleton.mp newest]
        exact step_of_step? taken

theorem invariant {P : Process → Prop}
    (keeps : ∀ {now event q r}, Step now q event r → P q → P r) {stages : List Stage}
    (course : Course p stages q) (holds : P p) :
    P q ∧ ∀ s ∈ stages, P s.before ∧ P s.after := by
  induction course with
  | refl => exact ⟨holds, by simp⟩
  | step _ taken ih =>
      have after := keeps (step_of_step? taken) ih.1
      refine ⟨after, ?_⟩
      intro s member
      rcases List.mem_append.mp member with earlier | newest
      · exact ih.2 s earlier
      · rw [List.mem_singleton.mp newest]
        exact ⟨ih.1, after⟩

end Course

def follow (p : Process) : List (Time.Instant × Event) → Option (List Stage × Process)
  | [] => some ([], p)
  | (now, event) :: rest =>
      match p.step? now event with
      | none => none
      | some q => (q.follow rest).map fun (stages, r) => (⟨p, now, event, q⟩ :: stages, r)

theorem course_of_follow {events : List (Time.Instant × Event)} {stages : List Stage}
    (followed : p.follow events = some (stages, q)) : Course p stages q := by
  induction events generalizing p stages with
  | nil =>
      cases followed
      exact .refl
  | cons first rest ih =>
      obtain ⟨now, event⟩ := first
      simp only [follow] at followed
      split at followed
      · cases followed
      · rename_i middle taken
        obtain ⟨⟨later, last⟩, continued, same⟩ := Option.map_eq_some_iff.mp followed
        cases same
        exact .trans (.step .refl taken) (ih continued)

end Process

def Cycle.flying (cycle : Cycle) : Nat := cycle.inFlight?.isSome.toNat

theorem Cycle.drained_iff {cycle : Cycle} :
    cycle.drained = true ↔ cycle.queued = 0 ∧ cycle.inFlight? = none := by
  simp [Cycle.drained]

structure Cycle.Sound (c : Circuit) (cycle : Cycle) : Prop where
  pending : cycle.queued + cycle.flying ≤ c.fired.toNat
  failed : c.failure?.isSome → c.fired = true ∧ c.stopped = true ∧ cycle.drained = true

theorem Cycle.Sound.alone {cycle : Cycle} {contentHash : String} (sound : cycle.Sound c)
    (flying : cycle.inFlight? = some contentHash) : c.fired = true ∧ cycle.queued = 0 := by
  have pending := sound.pending
  simp only [Cycle.flying, flying, Option.isSome_some, Bool.toNat_true] at pending
  cases spent : c.fired with
  | false => simp [spent] at pending
  | true =>
      rw [spent, Bool.toNat_true] at pending
      exact ⟨rfl, by omega⟩

theorem Cycle.Sound.idle {cycle : Cycle} (sound : cycle.Sound c) (queued : 0 < cycle.queued) :
    cycle.inFlight? = none := by
  cases flying : cycle.inFlight? with
  | none => rfl
  | some contentHash =>
      have unqueued := (sound.alone flying).2
      omega

theorem Cycle.Sound.unfailed {cycle : Cycle} (sound : cycle.Sound c)
    (pending : 0 < cycle.queued + cycle.flying) : c.failure? = none := by
  cases failed : c.failure? with
  | none => rfl
  | some failure =>
      obtain ⟨unqueued, idle⟩ := Cycle.drained_iff.mp (sound.failed (by simp [failed])).2.2
      simp [unqueued, Cycle.flying, idle] at pending

namespace Process

/-- What holds of a process that began as a new one. -/
inductive Coherent : Process → Prop where
  | unstarted {c : Circuit} (opened : c.isOpen) (uncounted : c.counters = .zero)
      (unfailed : c.failure? = none) : Coherent ⟨c, .unstarted⟩
  | opening {c : Circuit} {contentHash : String} {options : Options} (running : c.status = .running)
      (uncounted : c.counters = .zero) (unfailed : c.failure? = none) :
      Coherent ⟨c, .opening contentHash options⟩
  | between {c : Circuit} {pause? : Option Time.Span} (running : c.status = .running)
      (session : c.session?.isSome) (unfailed : c.failure? = none) : Coherent ⟨c, .between pause?⟩
  | cycling {c : Circuit} {cycle : Cycle} (running : c.status = .running)
      (session : c.session?.isSome) (sound : cycle.Sound c) : Coherent ⟨c, .cycling cycle⟩
  | ended {c : Circuit} {result : Except StartError PUnit} (halted : c.status = .halted)
      (unfailed : c.failure? = none) : Coherent ⟨c, .ended result⟩

theorem coherent_new : Coherent .new := .unstarted (.inl rfl) rfl rfl

theorem Coherent.unstarted_of_isOpen {c : Circuit} {progress : Progress}
    (coherent : Coherent ⟨c, progress⟩) (opened : c.isOpen) : progress = .unstarted := by
  cases coherent with
  | unstarted => rfl
  | opening running | between running | cycling running | ended running =>
      rcases opened with status | status <;> rw [running] at status <;> cases status

theorem Coherent.operate {c c' : Circuit} {progress : Progress}
    (coherent : Coherent ⟨c, progress⟩) (operation : Operation now c event c') :
    Coherent ⟨c', progress⟩ := by
  obtain ⟨counters, fired, failure, session⟩ := operation.frame
  have settled {status : Status} (same : c.status = status) (begun : ¬c.isOpen) :
      c'.status = status := (operation.status begun).trans same
  cases coherent with
  | unstarted opened uncounted unfailed =>
      exact .unstarted (operation.isOpen opened) (counters.trans uncounted) (failure.trans unfailed)
  | opening running uncounted unfailed =>
      refine .opening (settled running ?_) (counters.trans uncounted) (failure.trans unfailed)
      simp [isOpen, running]
  | between running opened unfailed =>
      refine .between (settled running ?_) (session ▸ opened) (failure.trans unfailed)
      simp [isOpen, running]
  | cycling running opened sound =>
      refine .cycling (settled running ?_) (session ▸ opened) ⟨fired ▸ sound.pending, ?_⟩
      · simp [isOpen, running]
      · intro failed
        obtain ⟨spent, stopped, drained⟩ := sound.failed (failure ▸ failed)
        exact ⟨fired.trans spent, operation.stopped stopped, drained⟩
  | ended halted unfailed =>
      refine .ended (settled halted ?_) (failure.trans unfailed)
      simp [isOpen, halted]

theorem coherent_finish {c : Circuit} (unfailed : c.failure? = none)
    (result : Except StartError PUnit) : Coherent (finish c result) := .ended rfl unfailed

theorem coherent_openSession {c : Circuit} (running : c.status = .running)
    (unfailed : c.failure? = none) (options : Options) (key : String) :
    Coherent (openSession c now options key) := by
  rcases openSession_cases c now options key with ⟨-, opened⟩ | ⟨fault, refused⟩
  · rw [opened]
    exact .between running rfl unfailed
  · rw [refused]
    exact coherent_finish (c := c.write now (.keyRefused fault)) unfailed _

theorem sound_evaluated {c : Circuit} {cycle cycle' : Cycle} (sound : cycle.Sound c)
    (queued : cycle'.queued = cycle.queued + (c.fires && !c.fired).toNat)
    (inFlight : cycle'.inFlight? = cycle.inFlight?) : cycle'.Sound (c.evaluated now) := by
  have pending := sound.pending
  constructor
  · simp only [Cycle.flying, queued, inFlight] at pending ⊢
    cases due : c.fires <;> cases spent : c.fired <;> simp_all [evaluated]
  · intro failed
    obtain ⟨spent, stopped, drained⟩ := sound.failed failed
    rw [Cycle.drained_iff] at drained
    exact ⟨by simp [evaluated, spent], stopped, by
      simp [Cycle.drained, queued, inFlight, spent, drained]⟩

theorem Step.coherent (step : Step now p event q) (coherent : Coherent p) : Coherent q := by
  cases step with
  | operate progress operation => exact coherent.operate operation
  | forgo progress options begun =>
      obtain ⟨startable, -, log, rfl⟩ := begin_over begun
      obtain rfl := coherent.unstarted_of_isOpen (isOpen_of_startFault? startable)
      cases coherent with
      | unstarted _ _ unfailed => exact .ended rfl unfailed
  | request progress begun keyless =>
      obtain ⟨startable, -, -, rfl⟩ := begin_running begun
      obtain rfl := coherent.unstarted_of_isOpen (isOpen_of_startFault? startable)
      cases coherent with
      | unstarted _ uncounted unfailed => exact .opening rfl uncounted unfailed
  | @enter c _ _ _ progress begun keyed =>
      obtain ⟨startable, -, -, rfl⟩ := begin_running begun
      obtain rfl := coherent.unstarted_of_isOpen (isOpen_of_startFault? startable)
      cases coherent with
      | unstarted _ _ unfailed =>
          exact coherent_openSession (c := { c with status := .running }) rfl unfailed _ _
  | @issue c contentHash options identity =>
      cases coherent with
      | opening running _ unfailed =>
          exact coherent_openSession (c := c.write now (.identityIssued identity)) running unfailed _ _
  | @deny c contentHash options refusal =>
      cases coherent with
      | opening _ _ unfailed =>
          exact coherent_finish (c := c.write now (.identityRefused refusal contentHash)) unfailed _
  | halt pause? stopped =>
      cases coherent with
      | between _ _ unfailed => exact coherent_finish unfailed _
  | begin pause? going =>
      cases coherent with
      | between running session unfailed =>
          exact .cycling running session ⟨Nat.le_refl _, by simp [unfailed]⟩
  | @report c r cycle _ _ observes report =>
      cases coherent with
      | cycling running session sound =>
          obtain ⟨satisfied, log, rfl⟩ := report.frame
          have recorded : cycle.Sound { c with satisfied, log } := ⟨sound.pending, sound.failed⟩
          exact .cycling running session (sound_evaluated recorded rfl rfl)
  | release release =>
      cases coherent with
      | cycling running session sound =>
          obtain ⟨log, rfl⟩ := release.frame
          exact .cycling running session ⟨sound.pending, sound.failed⟩
  | abandon cycle stopped =>
      cases coherent with
      | cycling running session sound =>
          exact .cycling running session ⟨sound.pending, sound.failed⟩
  | call idle queued requested =>
      cases coherent with
      | cycling running session sound =>
          refine .cycling running session ⟨?_, ?_⟩
          · have pending := sound.pending
            simp only [Cycle.flying, idle] at pending ⊢
            simp at pending ⊢
            omega
          · intro failed
            have drained := Cycle.drained_iff.mp (sound.failed failed).2.2
            omega
  | @answer c cycle contentHash flying answer =>
      cases coherent with
      | cycling running session sound =>
          -- The run that is answered is the only one of its cycle.
          obtain ⟨spent, unqueued⟩ := sound.alone flying
          have unfailed := sound.unfailed (by simp [Cycle.flying, flying])
          cases answer with
          | ok response =>
              obtain ⟨log, finished⟩ := finishRun_ok c now contentHash response
              rw [finished]
              refine .cycling running session ⟨?_, ?_⟩
              · simp [Cycle.flying, unqueued]
              · simp [unfailed]
          | error failure =>
              rw [finishRun_error]
              refine .cycling running session ⟨?_, ?_⟩
              · simp [Cycle.flying, unqueued]
              · intro _
                exact ⟨spent, rfl, by simp [Cycle.drained, unqueued]⟩
  | skip settled drained unclosed stopped =>
      cases coherent with
      | cycling running session sound =>
          exact .cycling running session ⟨sound.pending, sound.failed⟩
  | close settled drained unclosed going =>
      cases coherent with
      | cycling running session sound =>
          have empty := Cycle.drained_iff.mp drained
          exact .cycling running session
            (sound_evaluated sound (by simp [empty]) rfl)
  | fail closed drained failed => exact coherent_finish rfl _
  | end_ closed drained unfailed stopped => exact coherent_finish unfailed _
  | pause closed drained unfailed going =>
      cases coherent with
      | cycling running session sound => exact .between running session unfailed

theorem Course.coherent {stages : List Stage} (course : Course .new stages p) :
    Coherent p ∧ ∀ s ∈ stages, Coherent s.before ∧ Coherent s.after :=
  course.invariant Step.coherent coherent_new

def sampleStart : List Event :=
  [.setConditions [⟨0, "door"⟩], .setLogic ⟨.every, none⟩,
    .setActions [.fetch ⟨1, "https://example.org", "door", "", none, [], []⟩],
    .start ⟨some (String.ofList ("0x04".toList ++ List.replicate 128 '0')), .null, []⟩]

def sample (events : List Event) : Option (List Stage × Process) :=
  Process.new.follow (events.map fun event => (⟨0, 0⟩, event))

end Process
end Tripwire.Circuit
