import Tripwire.Proofs.Circuit.Confluence
import Tripwire.Proofs.Circuit.Stopping
import Tripwire.Proofs.Log.Ring

/-!
# What a course leaves in the log

A step appends the same notes to whatever log there is, and `Stage.notes` reads them off an empty one.
The log after a course is made of the notes of its stages, in their order. A report of a condition leaves
two, of which the second is an evaluation, and the end of a run one that says how it ended.
-/
namespace Tripwire

namespace Circuit

variable {c c' r : Circuit} {now : Time.Instant} {event : Event}

def logged (c : Circuit) (log : Log.Ring Noted) : Circuit := { c with log := log }

def Note.isPlain : Note → Bool
  | .matched .. | .unmatched .. | .runCompleted .. | .runFailed .. => false
  | _ => true

def reportNote (id : Nat) (holds : Bool) (satisfied : List Nat) : Note :=
  if holds then .matched id satisfied else .unmatched id satisfied

structure Plain (most : Nat) (notes : List Noted) : Prop where
  few : notes.length ≤ most
  plain : ∀ n ∈ notes, n.note.isPlain = true

theorem Plain.mono {notes : List Noted} {most more : Nat} (plain : Plain most notes)
    (le : most ≤ more) : Plain more notes := ⟨Nat.le_trans plain.few le, plain.plain⟩

theorem plain_nil (most : Nat) : Plain most [] := ⟨Nat.zero_le _, by simp⟩

theorem plain_note {note : Note} (most : Nat) (plain : note.isPlain = true) :
    Plain (most + 1) [⟨note, now⟩] := ⟨Nat.le_add_left 1 most, by simpa using plain⟩

theorem Plain.append {first second : List Noted} {most more : Nat} (left : Plain most first)
    (right : Plain more second) : Plain (most + more) (first ++ second) := by
  refine ⟨?_, List.forall_mem_append.mpr ⟨left.plain, right.plain⟩⟩
  rw [List.length_append]
  exact Nat.add_le_add left.few right.few

theorem refresh_logged (c : Circuit) (log : Log.Ring Noted) :
    (c.logged log).refresh = c.refresh.logged log := by
  cases status : c.status <;> simp [refresh, logged, status]

theorem setActions_logged (c : Circuit) (now : Time.Instant) (actions : List Action) :
    ∃ notes, Plain 1 notes ∧ ∀ log, ((c.logged log).setActions now actions).1 =
      (c.setActions now actions).1.logged (notes.foldl Log.Ring.append log) := by
  have script (log : Log.Ring Noted) : (c.logged log).script = c.script := rfl
  simp only [setActions, script]
  cases c.script.compile actions with
  | ok compiled =>
      exact ⟨[], plain_nil 1, fun log => refresh_logged { c with script := compiled.script } log⟩
  | error fault => exact ⟨[⟨.compileFailed fault, now⟩], plain_note 0 rfl, fun _ => rfl⟩

theorem begin_logged (c : Circuit) (now : Time.Instant) :
    ∃ notes, Plain 1 notes ∧ ∀ log, (c.logged log).begin now =
      ((c.begin now).1.logged (notes.foldl Log.Ring.append log), (c.begin now).2) := by
  have fault (log : Log.Ring Noted) : (c.logged log).startFault? = c.startFault? := rfl
  have stopped (log : Log.Ring Noted) : (c.logged log).stopped = c.stopped := rfl
  have exhausted (log : Log.Ring Noted) :
      (c.logged log).gate.exhausted? (c.logged log).counters now =
        c.gate.exhausted? c.counters now := rfl
  simp only [begin, fault, stopped, exhausted]
  split
  · rename_i fault _
    exact ⟨[⟨.startRefused fault, now⟩], plain_note 0 rfl, fun _ => rfl⟩
  · split
    · exact ⟨[⟨.stoppedBeforeStart c.counters, now⟩], plain_note 0 rfl, fun _ => rfl⟩
    · split
      · rename_i bound _
        exact ⟨[⟨.exhaustedBeforeStart bound c.counters, now⟩], plain_note 0 rfl, fun _ => rfl⟩
      · exact ⟨[], plain_nil 1, fun _ => rfl⟩

theorem finishRun_logged (c : Circuit) (now : Time.Instant) (contentHash : String)
    (answer : Except RunFailure Value) :
    ∃ notes, Plain 1 notes ∧ ∀ log, (c.logged log).finishRun now contentHash answer =
      (c.finishRun now contentHash answer).logged
        ((⟨Process.runNote contentHash answer, now⟩ :: notes).foldl Log.Ring.append log) := by
  cases answer with
  | error failure => exact ⟨[], plain_nil 1, fun _ => rfl⟩
  | ok response =>
      cases exhausted : c.gate.exhausted? ⟨c.counters.executed, c.counters.completed + 1⟩ now with
      | none =>
          refine ⟨[], plain_nil 1, fun log => ?_⟩
          simp [finishRun, write, logged, exhausted, Process.runNote]
      | some bound =>
          refine ⟨[⟨.exhausted bound ⟨c.counters.executed, c.counters.completed + 1⟩, now⟩],
            plain_note 0 rfl, fun log => ?_⟩
          simp [finishRun, write, stop, logged, exhausted, Process.runNote]

theorem Operation.logged (operation : Operation now c event c') :
    ∃ notes, Plain 1 notes ∧ ∀ log,
      Operation now (c.logged log) event (c'.logged (notes.foldl Log.Ring.append log)) := by
  cases operation with
  | setConditions watchers =>
      refine ⟨[], plain_nil 1, fun log => ?_⟩
      have same : (c.logged log).setConditions watchers = (c.setConditions watchers).logged log :=
        refresh_logged { c with watchers := watchers, satisfied := .empty } log
      exact same ▸ .setConditions watchers
  | setActions actions =>
      obtain ⟨notes, plain, same⟩ := setActions_logged c now actions
      exact ⟨notes, plain, fun log => same log ▸ .setActions actions⟩
  | setLogic logic => exact ⟨[], plain_nil 1, fun _ => .setLogic logic⟩
  | setConstraints constraints => exact ⟨[], plain_nil 1, fun _ => .setConstraints constraints⟩
  | stop => exact ⟨[], plain_nil 1, fun _ => .stop⟩
  | @refuse fault options faulty =>
      exact ⟨[⟨.startRefused fault, now⟩], plain_note 0 rfl, fun _ => .refuse options faulty⟩

namespace Process

variable {p q : Process} {s : Stage} {stages : List Stage}

def logged (p : Process) (log : Log.Ring Noted) : Process := ⟨p.circuit.logged log, p.progress⟩

theorem openSession_logged (c : Circuit) (now : Time.Instant) (options : Options) (key : String) :
    ∃ notes, Plain 1 notes ∧ ∀ log, openSession (c.logged log) now options key =
      (openSession c now options key).logged (notes.foldl Log.Ring.append log) := by
  unfold openSession
  cases Signer.checkPublicKey key with
  | ok _ => exact ⟨[], plain_nil 1, fun _ => rfl⟩
  | error fault => exact ⟨[⟨.keyRefused fault, now⟩], plain_note 0 rfl, fun _ => rfl⟩

inductive Stage.Tells (s : Stage) : List Noted → Prop where
  | report {index : Nat} {holds : Bool} (told : s.callback? = some (index, holds)) :
      s.Tells
        [⟨reportNote (Condition.idOf index) holds s.after.circuit.satisfied.ids, s.now⟩,
          ⟨s.after.circuit.evaluation, s.now⟩]
  | run {answer : Except RunFailure Value} {notes : List Noted} (contentHash : String)
      (answered : s.event = .answered answer) (plain : Plain 1 notes) :
      s.Tells (⟨runNote contentHash answer, s.now⟩ :: notes)
  | other {notes : List Noted} (untold : s.callback? = none)
      (unanswered : ∀ answer, s.event ≠ .answered answer) (plain : Plain 2 notes) : s.Tells notes

/-- What a step adds to the log, whatever log there is. -/
structure Records (s : Stage) (notes : List Noted) : Prop where
  tells : s.Tells notes
  logged : ∀ log, Step s.now (s.before.logged log) s.event
    (s.after.logged (notes.foldl Log.Ring.append log))

theorem records_quiet (untold : s.callback? = none) (unanswered : ∀ answer, s.event ≠ .answered answer)
    (logged : ∀ log, Step s.now (s.before.logged log) s.event (s.after.logged log)) :
    Records s [] := ⟨.other untold unanswered (plain_nil 2), logged⟩

theorem Step.records (step : Step now p event q) : ∃ notes, Records ⟨p, now, event, q⟩ notes := by
  cases step with
  | operate progress operation =>
      obtain ⟨notes, plain, logged⟩ := operation.logged
      have told : Plain 2 notes := plain.mono (Nat.le_succ 1)
      refine ⟨notes, .other ?_ ?_ told, fun log => .operate progress (logged log)⟩ <;>
        cases operation <;> simp [Stage.callback?]
  | @forgo c c' progress options begun =>
      obtain ⟨notes, plain, logged⟩ := begin_logged c now
      rw [begun] at logged
      exact ⟨notes, .other rfl nofun (plain.mono (Nat.le_succ 1)),
        fun log => .forgo progress options (logged log)⟩
  | @request c c' options progress begun keyless =>
      obtain ⟨notes, plain, logged⟩ := begin_logged c now
      rw [begun] at logged
      exact ⟨notes, .other rfl nofun (plain.mono (Nat.le_succ 1)),
        fun log => .request progress (logged log) keyless⟩
  | @enter c c' options key progress begun keyed =>
      obtain ⟨notes, plain, logged⟩ := begin_logged c now
      obtain ⟨notes', plain', opened⟩ := openSession_logged c' now options key
      rw [begun] at logged
      refine ⟨notes ++ notes', .other rfl nofun (plain.append plain'), fun log => ?_⟩
      rw [List.foldl_append, ← opened]
      exact .enter progress (logged log) keyed
  | @issue c contentHash options identity =>
      obtain ⟨notes, plain, opened⟩ := openSession_logged
        (c.write now (.identityIssued identity)) now options identity.publicKey
      have issued : Plain 1 [⟨Note.identityIssued identity, now⟩] := plain_note 0 rfl
      refine ⟨_ ++ notes, .other rfl nofun (issued.append plain), fun log => ?_⟩
      rw [List.foldl_append, ← opened]
      exact .issue contentHash options identity
  | deny contentHash options refusal =>
      exact ⟨[⟨.identityRefused refusal contentHash, now⟩], .other rfl nofun (plain_note 1 rfl),
        fun _ => .deny contentHash options refusal⟩
  | @report c r cycle event index observes report =>
      cases report with
      | matched =>
          exact ⟨_, @Stage.Tells.report _ index true rfl, fun _ => .report observes .matched⟩
      | unmatched =>
          exact ⟨_, @Stage.Tells.report _ index false rfl, fun _ => .report observes .unmatched⟩
  | release release =>
      cases release with
      | settled observes => exact ⟨[], records_quiet rfl nofun fun _ => .release (.settled observes)⟩
      | failed error found =>
          exact ⟨[⟨_, now⟩], .other rfl nofun (plain_note 1 rfl),
            fun _ => .release (.failed error found)⟩
      | cutOff bounded observes =>
          exact ⟨[⟨_, now⟩], .other rfl nofun (plain_note 1 rfl),
            fun _ => .release (.cutOff bounded observes)⟩
  | @answer c cycle contentHash flying answer =>
      obtain ⟨notes, plain, finished⟩ := finishRun_logged c now contentHash answer
      refine ⟨_, .run contentHash rfl plain, fun log => ?_⟩
      have step : Step now (logged ⟨c, .cycling cycle⟩ log) (.answered answer)
        ⟨(c.logged log).finishRun now contentHash answer,
          .cycling { cycle with inFlight? := none }⟩ := .answer flying answer
      rwa [finished] at step
  | @close c cycle settled drained unclosed going =>
      exact ⟨[⟨c.evaluation, now⟩], .other rfl nofun (plain_note 1 rfl),
        fun _ => .close settled drained unclosed going⟩
  | halt pause? stopped => exact ⟨[], records_quiet rfl nofun fun _ => .halt pause? stopped⟩
  | begin pause? going => exact ⟨[], records_quiet rfl nofun fun _ => .begin pause? going⟩
  | abandon cycle stopped => exact ⟨[], records_quiet rfl nofun fun _ => .abandon cycle stopped⟩
  | call idle queued requested =>
      exact ⟨[], records_quiet rfl nofun fun _ => .call idle queued requested⟩
  | skip settled drained unclosed stopped =>
      exact ⟨[], records_quiet rfl nofun fun _ => .skip settled drained unclosed stopped⟩
  | fail closed drained failed =>
      exact ⟨[], records_quiet rfl nofun fun _ => .fail closed drained failed⟩
  | end_ closed drained unfailed stopped =>
      exact ⟨[], records_quiet rfl nofun fun _ => .end_ closed drained unfailed stopped⟩
  | pause closed drained unfailed going =>
      exact ⟨[], records_quiet rfl nofun fun _ => .pause closed drained unfailed going⟩

theorem Stage.Tells.few {notes : List Noted} (tells : s.Tells notes) : notes.length ≤ 2 := by
  cases tells with
  | report told => exact Nat.le_refl 2
  | run contentHash answered plain => exact Nat.succ_le_succ plain.few
  | other untold unanswered plain => exact plain.few

def Stage.notes (s : Stage) : List Noted :=
  match (s.before.logged .standard).step? s.now s.event with
  | none => []
  | some q => q.circuit.log.toList

def appended (stages : List Stage) : List Noted := stages.flatMap Stage.notes

theorem appended_snoc (stages : List Stage) (s : Stage) :
    appended (stages ++ [s]) = appended stages ++ s.notes := by
  simp [appended]

theorem Records.notes_eq {notes : List Noted} (records : Records s notes) : s.notes = notes := by
  have few : notes.length ≤ Log.Ring.standardCapacity :=
    Nat.le_trans records.tells.few (by decide)
  have taken := step?_of_step (records.logged .standard)
  rw [Stage.notes, taken]
  exact Log.Ring.toList_foldl_append few

theorem Step.tells (step : Step now p event q) :
    (⟨p, now, event, q⟩ : Stage).Tells (⟨p, now, event, q⟩ : Stage).notes := by
  obtain ⟨notes, records⟩ := step.records
  exact records.notes_eq ▸ records.tells

theorem Step.log (step : Step now p event q) :
    q.circuit.log =
      (⟨p, now, event, q⟩ : Stage).notes.foldl Log.Ring.append p.circuit.log := by
  obtain ⟨notes, records⟩ := step.records
  have taken := step?_of_step (records.logged p.circuit.log)
  -- The log that the process has is one of those that the step may begin with.
  have same := (step?_of_step step).symm.trans taken
  rw [records.notes_eq]
  exact congrArg (·.circuit.log) (Option.some.inj same)

theorem Course.log (course : Course p stages q) :
    q.circuit.log = (appended stages).foldl Log.Ring.append p.circuit.log := by
  induction course with
  | refl => rfl
  | step course taken ih =>
      rw [appended_snoc, List.foldl_append, ← ih]
      exact (step_of_step? taken).log

theorem Course.entries_eq (course : Course .new stages p)
    (unwrapped : (appended stages).length ≤ Log.Ring.standardCapacity) :
    p.circuit.entries none = (appended stages).map Noted.entry := by
  have log : p.circuit.log.toList = appended stages := by
    rw [course.log]
    exact Log.Ring.toList_foldl_append unwrapped
  rw [Circuit.entries, log]
  exact List.filter_eq_self.mpr fun _ _ => rfl

end Process
end Circuit
end Tripwire
