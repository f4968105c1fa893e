import Tripwire.Proofs.Circuit.Requests
import Tripwire.Proofs.Signer.Key

/-!
# Keys that are issued locally

A start without a key asks the issuer for an identity. The local one has an identity for every script, with a
key that passes the check, so such a start gets its session, and whatever it requests later has the key of the
script that it found.
-/
namespace Tripwire.Circuit

open Signer (issueLocal checkPublicKey)

variable {now : Time.Instant} {event : Event}

namespace Process

variable {p q : Process} {stages : List Stage} {s : Stage} {contentHash : String} {options : Options}
  {identity : Signer.Identity}

def Stage.issuedLocally (s : Stage) : Bool :=
  match s.before.progress, s.event with
  | .opening contentHash _, .issued answer => answer = issueLocal contentHash
  | _, _ => true

def Stage.starts? (s : Stage) : Option Options :=
  match s.event with
  | .start options => some options
  | _ => none

theorem Stage.starts?_eq_some_iff : s.starts? = some options ↔ s.event = .start options := by
  unfold Stage.starts?
  split <;> simp_all

/-- What a start has come to, as far as a later process shows. -/
def Stage.cameTo? (s : Stage) (p : Process) : Option (Except StartError PUnit) :=
  match s.beginning? with
  | some (.refused fault) => some (.error (.configuration fault))
  | some .over => some (.ok ())
  | some .running => p.result?
  | none => none

def sessionOf (options : Options) (key : String) : Session := ⟨key, options.authSig, options.params⟩

inductive Serving (contentHash : String) (options : Options) (key : String) : Process → Prop where
  | opening (c : Circuit) : Serving contentHash options key ⟨c, .opening contentHash options⟩
  | opened {p : Process} (looped : p.Looped)
      (session : p.circuit.session? = some (sessionOf options key)) :
      Serving contentHash options key p

theorem Looped.past (looped : p.Looped) : p.past = true := by
  unfold Process.past
  split
  · rename_i unstarted
    simp [Looped, unstarted] at looped
  · rename_i opening
    simp [Looped, opening] at looped
  all_goals rfl

theorem openSession_of_checked {c : Circuit} {key : String} (checked : checkPublicKey key = .ok ()) :
    openSession c now options key =
      ⟨{ c with session? := some (sessionOf options key) }, .between none⟩ := by
  unfold openSession
  rw [checked]
  rfl

theorem Step.serving (step : Step now p event q) (coherent : Coherent p)
    (issued : (⟨p, now, event, q⟩ : Stage).issuedLocally = true)
    (given : issueLocal contentHash = .ok identity)
    (checked : checkPublicKey identity.publicKey = .ok ())
    (serving : Serving contentHash options identity.publicKey p) :
    Serving contentHash options identity.publicKey q := by
  cases serving with
  | opened looped session =>
      obtain ⟨same, -⟩ := step.session_eq looped.past coherent
      exact .opened (step.looped coherent (.inl looped)) (same.trans session)
  -- While the issuer is asked no other start gets through, so the answer can only be that of this one.
  | opening c =>
      cases step with
      | operate progress operation => exact .opening _
      | issue _ _ answer =>
          have same : .ok answer = issueLocal contentHash := of_decide_eq_true issued
          obtain rfl : answer = identity := Except.ok.inj (same.trans given)
          rw [openSession_of_checked checked]
          exact .opened trivial rfl
      | deny _ _ refusal =>
          have same : .error refusal = issueLocal contentHash := of_decide_eq_true issued
          cases same.trans given
      | forgo _ _ begun =>
          obtain ⟨startable, -⟩ := begin_over begun
          cases coherent.unstarted_of_isOpen (isOpen_of_startFault? startable)
      | request _ begun | enter _ begun =>
          obtain ⟨startable, -⟩ := begin_running begun
          cases coherent.unstarted_of_isOpen (isOpen_of_startFault? startable)

theorem Course.serving (course : Course p stages q) (coherent : Coherent p)
    (issued : ∀ s ∈ stages, s.issuedLocally = true) (given : issueLocal contentHash = .ok identity)
    (checked : checkPublicKey identity.publicKey = .ok ())
    (serving : Serving contentHash options identity.publicKey p) :
    Serving contentHash options identity.publicKey q ∧
      ∀ s ∈ stages, Serving contentHash options identity.publicKey s.before := by
  have keeps : (Coherent q ∧ Serving contentHash options identity.publicKey q) ∧
      ∀ s ∈ stages, Serving contentHash options identity.publicKey s.before := by
    induction course with
    | refl => exact ⟨⟨coherent, serving⟩, by simp⟩
    | @step stages q r now event course taken ih =>
        rw [List.forall_mem_append, List.forall_mem_singleton] at issued
        obtain ⟨⟨coherent, serving⟩, earlier⟩ := ih issued.1
        have step := step_of_step? taken
        refine ⟨⟨step.coherent coherent, step.serving coherent issued.2 given checked serving⟩, ?_⟩
        rw [List.forall_mem_append, List.forall_mem_singleton]
        exact ⟨earlier, serving⟩
  exact ⟨keeps.1.2, keeps.2⟩

theorem Serving.failed {key : String} {error : StartError} (serving : Serving contentHash options key p)
    (ended : p.progress = .ended (.error error)) : ∃ failure, error = .execution failure := by
  cases serving with
  | opening c => cases ended
  | opened looped session =>
      rcases looped.result ended with same | ⟨failure, same⟩
      · cases same
      · exact ⟨failure, Except.error.inj same⟩

theorem Serving.answered {key contentHash' : String} {options' : Options}
    (serving : Serving contentHash options key p) (opening : p.progress = .opening contentHash' options') :
    contentHash' = contentHash ∧ options' = options := by
  cases serving with
  | opening c =>
      cases opening
      exact ⟨rfl, rfl⟩
  | opened looped session => simp [Looped, opening] at looped

theorem Serving.requested {key : String} (serving : Serving contentHash options key p)
    (step : Step now p .call q) : ∃ request, p.request? = some request ∧
      request.params.lookup "publicKey" = some (.str key) := by
  obtain ⟨session, present, requested, -, past⟩ := step.requested
  cases serving with
  | opening c => cases past
  | opened looped opened =>
      obtain rfl := Option.some.inj (opened.symm.trans present)
      exact ⟨_, requested, (snapshot_requestOf _ _).publicKey⟩

theorem startFault?_spec {c : Circuit} {fault : Fault} (faulty : c.startFault? = some fault) :
    fault ∈ [Fault.noConditions, .noActions, .alreadyRunning, .halted] ∧ c.suffers fault = true := by
  rw [startFault?_eq_find?] at faulty
  exact ⟨List.mem_of_find?_eq_some faulty, List.find?_some faulty⟩

theorem Stage.exists_begun (launches : s.launches = true) :
    ∃ c, s.before.circuit.begin s.now = (c, .running) := by
  unfold Stage.launches Stage.beginning? at launches
  split at launches
  · exact ⟨_, Prod.ext rfl (by simpa using launches)⟩
  · cases launches

theorem Coherent.unstarted_of_launches (coherent : Coherent s.before) (launches : s.launches = true) :
    s.before.progress = .unstarted := by
  obtain ⟨c, begun⟩ := Stage.exists_begun launches
  exact coherent.unstarted_of_isOpen (isOpen_of_startFault? (begin_running begun).1)

theorem Step.opening (step : Step s.now s.before s.event s.after) (started : s.event = .start options)
    (keyless : options.publicKey? = none) (launches : s.launches = true) :
    ∃ c, s.after = ⟨c, .opening s.before.circuit.script.contentHash options⟩ := by
  obtain ⟨c, begun⟩ := Stage.exists_begun launches
  rw [started] at step
  have taken := step?_of_step step
  obtain ⟨-, -, -, rfl⟩ := begin_running begun
  simp only [step?, start, begun, keyless, Option.some.injEq] at taken
  exact ⟨_, taken.symm⟩

theorem Course.tail {later : List Stage} (course : Course p (s :: later) q) :
    Course s.after later q := by
  obtain ⟨middle, first, rest⟩ : ∃ middle, Course p ([] ++ [s]) middle ∧ Course middle later q :=
    course.split
  obtain rfl := first.of_snoc.2
  exact rest

theorem Course.uncalled_before {earlier : List Stage} (course : Course .new earlier s.before)
    (launches : s.launches = true) : ∀ t ∈ earlier, t.event ≠ .call := by
  intro t member called
  have step := course.taken member
  rw [called] at step
  obtain ⟨session, present, -, -, past⟩ := step.requested
  obtain ⟨later, onward⟩ := course.onward member
  have kept := onward.session_eq past (course.coherent.2 t member).1
  have unstarted := course.coherent.1.unstarted_of_launches launches
  rw [present, course.seated.closed (by simp [Process.past, unstarted])] at kept
  cases kept

theorem Course.serving_of_launches {earlier later : List Stage}
    (course : Course .new (earlier ++ s :: later) p)
    (issued : ∀ t ∈ earlier ++ s :: later, t.issuedLocally = true) (started : s.event = .start options)
    (keyless : options.publicKey? = none) (launches : s.launches = true)
    (given : issueLocal s.before.circuit.script.contentHash = .ok identity)
    (checked : checkPublicKey identity.publicKey = .ok ()) :
    Serving s.before.circuit.script.contentHash options identity.publicKey p ∧ ∀ t ∈ later,
      Serving s.before.circuit.script.contentHash options identity.publicKey t.before := by
  have member : s ∈ earlier ++ s :: later := List.mem_append_right earlier List.mem_cons_self
  obtain ⟨c, opening⟩ := (course.taken member).opening started keyless launches
  obtain ⟨middle, -, rest⟩ := course.split
  obtain rfl := rest.before_eq
  have after := rest.tail
  rw [opening] at after
  have coherent := opening ▸ (course.coherent.2 s member).2
  exact after.serving coherent (fun t among => issued t (by simp [among])) given checked (.opening c)

theorem Stage.of_cameTo? {error : StartError} (started : s.event = .start options)
    (came : s.cameTo? p = some (.error error)) :
    (∃ fault ∈ [Fault.noConditions, .noActions, .alreadyRunning, .halted],
      s.before.circuit.suffers fault = true ∧ error = .configuration fault) ∨
    s.launches = true ∧ p.progress = .ended (.error error) := by
  unfold Stage.cameTo? at came
  split at came
  · rename_i fault refused
    cases came
    simp only [Stage.beginning?, started, Option.some.injEq] at refused
    obtain ⟨listed, suffers⟩ := startFault?_spec (begin_eq_refused_iff.mp refused)
    exact .inl ⟨fault, listed, suffers, rfl⟩
  · cases came
  · rename_i running
    exact .inr ⟨by simp [Stage.launches, running], result?_eq_some_iff.mp came⟩
  · cases came

/-- Public keys are `0x04` and 128 hexadecimal digits, and the local issuer has such a key, and an address of 40
digits, for whatever has a content hash. Each script has one. So a start without a key can only be refused for
what is missing or under way, or fail with a run. If it gets through, its identity is the one of the script that
it found. While the issuer is asked, its answer opens the session, and all requests have its key. -/
theorem local_keys_serve (course : Course .new stages p) (issued : ∀ s ∈ stages, s.issuedLocally = true) :
    (∀ key, (checkPublicKey key = .ok () ↔ Signer.Marked "0x04" 128 key) ∧
      (checkPublicKey key = .ok () ↔ Signer.MarkedBytes key)) ∧
    (∀ contentHash, contentHash ≠ "" → ∃ identity, issueLocal contentHash = .ok identity ∧
      checkPublicKey identity.publicKey = .ok () ∧ Signer.Marked "0x" 40 identity.address) ∧
    (∀ script : Script, script.contentHash ≠ "") ∧
    ∀ s ∈ stages, ∀ options, s.event = .start options → options.publicKey? = none →
      (∀ error, s.cameTo? p = some (.error error) →
        (∃ fault ∈ [Fault.noConditions, .noActions, .alreadyRunning, .halted],
          s.before.circuit.suffers fault = true ∧ error = .configuration fault) ∨
        ∃ failure, error = .execution failure) ∧
      (s.launches = true → ∃ identity, issueLocal s.before.circuit.script.contentHash = .ok identity ∧
        (∀ contentHash options', p.progress = .opening contentHash options' →
          contentHash = s.before.circuit.script.contentHash ∧ options' = options ∧
          ∀ now, ∃ q, p.step? now (.issued (.ok identity)) = some q ∧ q.progress = .between none ∧
            q.circuit.session? = some (sessionOf options identity.publicKey)) ∧
        ∀ t ∈ stages, t.event = .call → ∃ request, t.before.request? = some request ∧
          request.params.lookup "publicKey" = some (.str identity.publicKey)) := by
  have form (key : String) : checkPublicKey key = .ok () ↔ Signer.Marked "0x04" 128 key :=
    Signer.checkPublicKey_eq_ok_iff
  have issues (contentHash : String) (present : contentHash ≠ "") : ∃ identity,
      issueLocal contentHash = .ok identity ∧ checkPublicKey identity.publicKey = .ok () ∧
        Signer.Marked "0x" 40 identity.address := by
    obtain ⟨identity, given, key, address⟩ := Signer.exists_issueLocal present
    exact ⟨identity, given, (form _).mpr key, address⟩
  refine ⟨fun key => ⟨form key, (form key).trans Signer.markedBytes_iff.symm⟩, issues,
    Signer.contentHash_ne_empty, ?_⟩
  intro s member options started keyless
  obtain ⟨identity, given, checked, -⟩ := issues _ (Signer.contentHash_ne_empty s.before.circuit.script)
  obtain ⟨earlier, later, rfl⟩ := List.append_of_mem member
  have serving (launches : s.launches = true) :=
    course.serving_of_launches issued started keyless launches given checked
  refine ⟨?_, ?_⟩
  · intro error came
    rcases Stage.of_cameTo? started came with refused | ⟨launches, ended⟩
    · exact .inl refused
    · exact .inr ((serving launches).1.failed ended)
  · intro launches
    obtain ⟨reached, during⟩ := serving launches
    refine ⟨identity, given, ?_, ?_⟩
    · intro contentHash options' opening
      obtain ⟨rfl, rfl⟩ := reached.answered opening
      refine ⟨rfl, rfl, fun now => ?_⟩
      simp only [step?, opening, openSession_of_checked checked]
      exact ⟨_, rfl, rfl, rfl⟩
    · intro t among called
      have step := course.taken among
      rw [called] at step
      rcases List.mem_append.mp among with sooner | here
      · obtain ⟨middle, before, rest⟩ := course.split
        obtain rfl := rest.before_eq
        exact absurd called (before.uncalled_before launches t sooner)
      rcases List.mem_cons.mp here with rfl | within
      · cases called.symm.trans started
      · exact (during t within).requested step

def sampleOptions : Options := ⟨none, .null, []⟩

def sampleKeyless : List Event :=
  [.start sampleOptions, .setConditions [⟨0, "door"⟩], .setActions [Script.samplePrice],
    .start sampleOptions, .setActions [Script.sampleRate]]

theorem exists_opening (started : p.started = true) (early : p.past = false) :
    ∃ contentHash options, p.progress = .opening contentHash options := by
  cases reached : p.progress with
  | unstarted => simp [Process.started, reached] at started
  | opening contentHash options => exact ⟨contentHash, options, rfl⟩
  | between | cycling | ended => simp [Process.past, reached] at early

theorem sampleKeyless_served :
    ∃ stages p, Course .new stages p ∧ (∀ s ∈ stages, s.issuedLocally = true) ∧
      ∃ s ∈ stages, s.event = .start sampleOptions ∧ s.launches = true ∧
        s.before.circuit.script ≠ p.circuit.script ∧
        ∃ identity q, issueLocal s.before.circuit.script.contentHash = .ok identity ∧
          p.step? ⟨0, 0⟩ (.issued (.ok identity)) = some q ∧
          q.circuit.session? = some (sessionOf sampleOptions identity.publicKey) := by
  have followed : (sample sampleKeyless).any fun run =>
      run.1.all Stage.issuedLocally && (run.2.started && !run.2.past) && run.1.any fun s =>
        s.starts? = some sampleOptions && s.launches &&
          s.before.circuit.script ≠ run.2.circuit.script := by decide +kernel
  simp only [Option.any_eq_true, Bool.and_eq_true, List.all_eq_true, List.any_eq_true,
    decide_eq_true_eq, Bool.not_eq_true'] at followed
  obtain ⟨⟨stages, p⟩, sampled, ⟨issued, reached, early⟩, s, member, ⟨starts, launches⟩, grown⟩ := followed
  have course := course_of_follow sampled
  have started := Stage.starts?_eq_some_iff.mp starts
  obtain ⟨contentHash, options, opening⟩ := exists_opening reached early
  obtain ⟨-, -, -, starts⟩ := local_keys_serve course issued
  obtain ⟨-, serves⟩ := starts s member sampleOptions started rfl
  obtain ⟨identity, given, waits, -⟩ := serves launches
  obtain ⟨-, -, issues⟩ := waits contentHash options opening
  obtain ⟨q, step, -, session⟩ := issues ⟨0, 0⟩
  exact ⟨stages, p, course, issued, s, member, started, launches, grown, identity, q, given, step, session⟩

end Process
end Tripwire.Circuit
