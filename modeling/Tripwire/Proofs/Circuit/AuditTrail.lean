import Tripwire.Proofs.Circuit.Trail

/-!
# The log as an audit trail

Read back in order, the entries that report on conditions say what is satisfied, each of them is followed
by the evaluation of what is satisfied then, and the entries of runs agree with the counters.
-/
namespace Tripwire

/-! ## Reading entries -/

namespace Log.Entry

variable {e : Entry} {id : Nat} {holds : Bool}

/-- The condition that an entry reports on, and whether it says that it begins or ceases to hold. The
number is read from the digits of the message. -/
def report? (e : Entry) : Option (Nat × Bool) :=
  let id := Nat.ofDigitChars 10 (e.message.toList.filter Char.isDigit) 0
  if e.category = .condition ∧ e.message = "condition " ++ toString id ++ " matched" then
    some (id, true)
  else if e.category = .condition ∧ e.message = "condition " ++ toString id ++ " unmatched" then
    some (id, false)
  else none

def completes (e : Entry) : Bool := e.category = .response && e.message = "action run completed"

def fails (e : Entry) : Bool :=
  e.category = .error && "action run failed: ".toList.isPrefixOf e.message.toList

def ending (holds : Bool) : String := if holds then " matched" else " unmatched"

theorem number_of_message (message : e.message = "condition " ++ toString id ++ ending holds) :
    Nat.ofDigitChars 10 (e.message.toList.filter Char.isDigit) 0 = id := by
  have digits : ∀ c ∈ Nat.toDigits 10 id, c.isDigit = true := fun _ member =>
    Nat.isDigit_of_mem_toDigits (by decide) (by decide) member
  have number : (toString id).toList.filter Char.isDigit = Nat.toDigits 10 id := by
    rw [Nat.toString_eq_ofList_toDigits, String.toList_ofList]
    exact List.filter_eq_self.mpr digits
  have before : "condition ".toList.filter Char.isDigit = [] := by decide
  have after : (ending holds).toList.filter Char.isDigit = [] := by cases holds <;> decide
  rw [message, String.toList_append, String.toList_append, List.filter_append, List.filter_append,
    number, before, after, List.nil_append, List.append_nil]
  exact Nat.ofDigitChars_ten_toDigits

theorem report?_eq_some_iff : e.report? = some (id, holds) ↔
    e.category = .condition ∧ e.message = "condition " ++ toString id ++ ending holds := by
  constructor
  · intro read
    unfold report? at read
    simp only at read
    split at read
    · rename_i shown
      cases read
      exact shown
    · split at read
      · rename_i shown
        cases read
        exact shown
      · cases read
  · rintro ⟨category, message⟩
    unfold report?
    rw [number_of_message message]
    cases holds with
    | true => simp [category, message, ending]
    | false => simp [category, message, ending]

end Log.Entry

namespace Condition

def Satisfied.told (satisfied : Satisfied) : Option (Nat × Bool) → Satisfied
  | none => satisfied
  | some (id, true) => satisfied.insert id
  | some (id, false) => satisfied.erase id

end Condition

namespace Circuit

variable {n : Noted} {now : Time.Instant} {event : Event}

theorem report?_entry_report (id : Nat) (holds : Bool) (satisfied : List Nat) (at_ : Time.Instant) :
    (Noted.entry ⟨reportNote id holds satisfied, at_⟩).report? = some (id, holds) := by
  rw [Log.Entry.report?_eq_some_iff]
  cases holds <;> exact ⟨rfl, rfl⟩

theorem entry_category (n : Noted) : n.entry.category = n.note.category := rfl

theorem entry_message (n : Noted) : n.entry.message = n.note.message := rfl

theorem report?_entry_of_isPlain (plain : n.note.isPlain = true) : n.entry.report? = none := by
  rw [Option.eq_none_iff_forall_ne_some]
  rintro ⟨id, holds⟩ read
  obtain ⟨category, message⟩ := Log.Entry.report?_eq_some_iff.mp read
  rw [entry_category] at category
  have letters := congrArg String.toList message
  rw [entry_message] at letters
  obtain ⟨note, at_⟩ := n
  unfold Note.message at letters
  cases note with
  | matched | unmatched => cases plain
  | evaluated | stoppedBeforeStart | exhaustedBeforeStart | exhausted =>
      simp at letters
  | timedOut id' limit =>
      have last := congrArg List.getLast? letters
      simp only [String.toList_append, List.getLast?_append] at last
      cases holds <;> simp [Log.Entry.ending] at last
  | _ => cases category

theorem completes_entry_of_isPlain (plain : n.note.isPlain = true) : n.entry.completes = false := by
  rw [Log.Entry.completes, entry_category, entry_message]
  obtain ⟨note, at_⟩ := n
  unfold Note.message
  cases note with
  | runCompleted => cases plain
  | identityIssued => simp
  | _ => rfl

theorem fails_entry_of_isPlain (plain : n.note.isPlain = true) : n.entry.fails = false := by
  rw [Log.Entry.fails, entry_category, entry_message]
  obtain ⟨note, at_⟩ := n
  unfold Note.message
  cases note with
  | runFailed => cases plain
  | compileFailed | startRefused | identityRefused | keyRefused | observationFailed =>
      simp [List.isPrefixOf]
  | _ => rfl

theorem entry_runNote (contentHash : String) (answer : Except RunFailure Value)
    (at_ : Time.Instant) :
    (Noted.entry ⟨Process.runNote contentHash answer, at_⟩).report? = none ∧
      (Noted.entry ⟨Process.runNote contentHash answer, at_⟩).completes = answer.isOk ∧
      (Noted.entry ⟨Process.runNote contentHash answer, at_⟩).fails = !answer.isOk := by
  refine ⟨?_, ?_, ?_⟩
  · rw [Option.eq_none_iff_forall_ne_some]
    rintro ⟨id, holds⟩ read
    have category := (Log.Entry.report?_eq_some_iff.mp read).1
    cases answer <;> cases category
  · cases answer <;> rfl
  · cases answer with
    | ok response => rfl
    | error failure =>
        rw [Log.Entry.fails, entry_category, entry_message]
        unfold Note.message
        simp [Process.runNote, Note.category, Except.isOk, Except.toBool]

theorem Plain.entries {notes : List Noted} {most : Nat} (plain : Plain most notes) :
    ∀ e ∈ notes.map Noted.entry, e.report? = none ∧ e.completes = false ∧ e.fails = false := by
  intro e member
  obtain ⟨n, among, rfl⟩ := List.mem_map.mp member
  have plain := plain.plain n among
  exact ⟨report?_entry_of_isPlain plain, completes_entry_of_isPlain plain,
    fails_entry_of_isPlain plain⟩

theorem Plain.quiet {notes : List Noted} {most : Nat} (plain : Plain most notes) :
    ∀ e ∈ notes.map Noted.entry, e.report? = none := fun e member => (plain.entries e member).1

theorem Plain.quiet_run {notes : List Noted} {most : Nat} (plain : Plain most notes)
    (contentHash : String) (answer : Except RunFailure Value) (at_ : Time.Instant) :
    ∀ e ∈ (⟨Process.runNote contentHash answer, at_⟩ :: notes).map Noted.entry, e.report? = none :=
  List.forall_mem_cons.mpr ⟨(entry_runNote contentHash answer at_).1, plain.quiet⟩

theorem Plain.countP {notes : List Noted} {most : Nat} (plain : Plain most notes) :
    (notes.map Noted.entry).countP Log.Entry.completes = 0 ∧
      (notes.map Noted.entry).countP Log.Entry.fails = 0 := by
  rw [List.countP_eq_zero, List.countP_eq_zero]
  exact ⟨fun e member => by simp [(plain.entries e member).2.1],
    fun e member => by simp [(plain.entries e member).2.2]⟩

/-! ## Replaying entries -/

def replayFrom (satisfied : Condition.Satisfied) (entries : List Log.Entry) : Condition.Satisfied :=
  entries.foldl (fun satisfied e => satisfied.told e.report?) satisfied

def replay (entries : List Log.Entry) : Condition.Satisfied := replayFrom .empty entries

theorem replay_append (earlier later : List Log.Entry) :
    replay (earlier ++ later) = replayFrom (replay earlier) later := List.foldl_append

theorem replayFrom_quiet {entries : List Log.Entry} (satisfied : Condition.Satisfied)
    (quiet : ∀ e ∈ entries, e.report? = none) : replayFrom satisfied entries = satisfied := by
  induction entries with
  | nil => rfl
  | cons e rest ih =>
      obtain ⟨first, others⟩ := List.forall_mem_cons.mp quiet
      have later := ih others
      simp only [replayFrom, List.foldl_cons, first] at later ⊢
      exact later

namespace Process

variable {p q : Process} {s : Stage} {stages : List Stage}

theorem Step.satisfied_eq (step : Step now p event q)
    (unset : (⟨p, now, event, q⟩ : Stage).registers = false) :
    q.circuit.satisfied = p.circuit.satisfied.told
      ((⟨p, now, event, q⟩ : Stage).callback?.map fun t => (Condition.idOf t.1, t.2)) := by
  apply Condition.Satisfied.eq_of_mem_iff
  intro id
  rw [(step.conditions unset).2, Stage.reports?_eq]
  cases (⟨p, now, event, q⟩ : Stage).callback? with
  | none => exact Iff.rfl
  | some t =>
      obtain ⟨index, holds⟩ := t
      by_cases numbered : Condition.idOf index = id
      · cases holds <;> simp [Condition.Satisfied.told, numbered]
      · cases holds <;> simp [Condition.Satisfied.told, numbered, Ne.symm numbered]

/-! ## The entries of a stage -/

theorem Stage.Tells.replayed {notes : List Noted} (tells : s.Tells notes)
    (satisfied : Condition.Satisfied) :
    replayFrom satisfied (notes.map Noted.entry) =
      satisfied.told (s.callback?.map fun t => (Condition.idOf t.1, t.2)) := by
  cases tells with
  | report told =>
      have evaluated : (Noted.entry ⟨s.after.circuit.evaluation, s.now⟩).report? = none :=
        report?_entry_of_isPlain rfl
      simp only [replayFrom, List.map_cons, List.map_nil, List.foldl_cons, List.foldl_nil, told,
        report?_entry_report, evaluated, Option.map_some]
      rfl
  | run contentHash answered plain =>
      have untold : s.callback? = none := by simp [Stage.callback?, answered]
      rw [untold]
      exact replayFrom_quiet satisfied (plain.quiet_run contentHash _ s.now)
  | other untold unanswered plain =>
      rw [untold]
      exact replayFrom_quiet satisfied plain.quiet

theorem Stage.unanswered {s : Stage} (unanswered : ∀ answer, s.event ≠ .answered answer) :
    s.succeeds = false ∧ s.fails = false := by
  obtain ⟨_, _, event, _⟩ := s
  cases event with
  | answered answer => exact absurd rfl (unanswered answer)
  | _ => exact ⟨rfl, rfl⟩

theorem Stage.Tells.countP {notes : List Noted} (tells : s.Tells notes) :
    (notes.map Noted.entry).countP Log.Entry.completes = s.succeeds.toNat ∧
      (notes.map Noted.entry).countP Log.Entry.fails = s.fails.toNat := by
  cases tells with
  | @report index holds told =>
      have unanswered : ∀ answer, s.event ≠ .answered answer := by
        intro answer answered
        simp [Stage.callback?, answered] at told
      have category : (Noted.entry ⟨reportNote (Condition.idOf index) holds
          s.after.circuit.satisfied.ids, s.now⟩).category = .condition := by cases holds <;> rfl
      have evaluated : Plain 1 [⟨s.after.circuit.evaluation, s.now⟩] := plain_note 0 rfl
      rw [List.map_cons, List.countP_cons, List.countP_cons, evaluated.countP.1,
        evaluated.countP.2, (Stage.unanswered unanswered).1, (Stage.unanswered unanswered).2]
      simp [Log.Entry.completes, Log.Entry.fails, category]
  | @run answer notes contentHash answered plain =>
      obtain ⟨-, completes, fails⟩ := entry_runNote contentHash answer s.now
      rw [List.map_cons, List.countP_cons, List.countP_cons, plain.countP.1, plain.countP.2,
        completes, fails]
      cases answer <;>
        simp [Stage.succeeds, Stage.fails, Stage.failure?, answered, Except.isOk, Except.toBool]
  | other untold unanswered plain =>
      rw [plain.countP.1, plain.countP.2, (Stage.unanswered unanswered).1,
        (Stage.unanswered unanswered).2]
      exact ⟨rfl, rfl⟩

theorem Stage.Tells.followed {notes : List Noted} {front rest : List Log.Entry} {e : Log.Entry}
    (tells : s.Tells notes) (split : notes.map Noted.entry = front ++ e :: rest)
    (reports : e.report? ≠ none) :
    front = [] ∧ rest = [Noted.entry ⟨s.after.circuit.evaluation, s.now⟩] := by
  have among : e ∈ notes.map Noted.entry := by simp [split]
  cases tells with
  | report told =>
      cases front with
      | nil => exact ⟨rfl, (List.cons.inj split).2.symm⟩
      | cons first front =>
          -- The evaluation reports on no condition.
          cases front with
          | nil =>
              cases split
              exact absurd (report?_entry_of_isPlain rfl) reports
          | cons => simp at split
  | run contentHash answered plain =>
      exact absurd (plain.quiet_run contentHash _ s.now e among) reports
  | other untold unanswered plain => exact absurd (plain.quiet e among) reports

/-! ## The entries of a course -/

def trail (stages : List Stage) : List Log.Entry := (appended stages).map Noted.entry

theorem trail_snoc (stages : List Stage) (s : Stage) :
    trail (stages ++ [s]) = trail stages ++ s.notes.map Noted.entry := by
  rw [trail, appended_snoc, List.map_append]
  rfl

theorem Course.countP_trail (course : Course p stages q) :
    (trail stages).countP Log.Entry.completes = stages.countP Stage.succeeds ∧
      (trail stages).countP Log.Entry.fails = stages.countP Stage.fails := by
  induction course with
  | refl => exact ⟨rfl, rfl⟩
  | step course taken ih =>
      obtain ⟨completes, fails⟩ := (step_of_step? taken).tells.countP
      rw [countP_snoc, countP_snoc, trail_snoc, List.countP_append, List.countP_append, ih.1, ih.2,
        completes, fails]
      exact ⟨rfl, rfl⟩

/-- The entry of an evaluation of the logic for what is satisfied. -/
def Evaluates (e : Log.Entry) (satisfied : Condition.Satisfied) : Prop :=
  ∃ policy? outcome total at_,
    e = Noted.entry ⟨.evaluated policy? outcome satisfied.ids total, at_⟩

theorem evaluates_evaluation (c : Circuit) (at_ : Time.Instant) :
    Evaluates (Noted.entry ⟨c.evaluation, at_⟩) c.satisfied := ⟨_, _, _, _, rfl⟩

structure Audited (entries : List Log.Entry) (p : Process) : Prop where
  replayed : replay entries = p.circuit.satisfied
  followed : ∀ front e rest, entries = front ++ e :: rest → e.report? ≠ none →
    ∃ next later, rest = next :: later ∧ Evaluates next (replay (front ++ [e]))
  fresh : p.started = false → p.circuit.satisfied = .empty

theorem Step.cycling_of_callback? {t : Nat × Bool} (step : Step now p event q)
    (told : (⟨p, now, event, q⟩ : Stage).callback? = some t) : p.Cycling := by
  cases step with
  | report observes report => exact ⟨_, rfl⟩
  | operate progress operation => cases operation <;> cases told
  | release release => cases release <;> cases told
  | _ => cases told

theorem Audited.step {entries : List Log.Entry} (audited : Audited entries p) (coherent : Coherent p)
    (step : Step now p event q)
    (kept : (⟨p, now, event, q⟩ : Stage).registers = true → p.started = false) :
    Audited (entries ++ (⟨p, now, event, q⟩ : Stage).notes.map Noted.entry) q := by
  have tells := step.tells
  have untold (unstarted : p.started = false) : (⟨p, now, event, q⟩ : Stage).callback? = none := by
    rw [Option.eq_none_iff_forall_ne_some]
    intro t told
    obtain ⟨cycle, cycling⟩ := step.cycling_of_callback? told
    rw [started_eq_false_iff.mp unstarted] at cycling
    cases cycling
  have satisfied : q.circuit.satisfied = p.circuit.satisfied.told
      ((⟨p, now, event, q⟩ : Stage).callback?.map fun t => (Condition.idOf t.1, t.2)) := by
    cases registers : (⟨p, now, event, q⟩ : Stage).registers with
    | false => exact step.satisfied_eq registers
    | true =>
        rw [step.forgets registers, untold (kept registers), audited.fresh (kept registers)]
        rfl
  have replayed : replay (entries ++ (⟨p, now, event, q⟩ : Stage).notes.map Noted.entry) =
      q.circuit.satisfied := by
    rw [replay_append, audited.replayed, tells.replayed, satisfied]
  refine ⟨replayed, ?_, ?_⟩
  · intro front e rest split reports
    have newest {front rest : List Log.Entry}
        (new : (⟨p, now, event, q⟩ : Stage).notes.map Noted.entry = front ++ e :: rest) :
        ∃ next later, rest = next :: later ∧ Evaluates next (replay (entries ++ front ++ [e])) := by
      obtain ⟨rfl, rfl⟩ := tells.followed new reports
      have quiet : (Noted.entry ⟨q.circuit.evaluation, now⟩).report? = none :=
        report?_entry_of_isPlain rfl
      have reached : replay (entries ++ [e]) = q.circuit.satisfied := by
        rw [new, List.nil_append, ← List.singleton_append, ← List.append_assoc, replay_append,
          replayFrom_quiet _ (List.forall_mem_singleton.mpr quiet)] at replayed
        exact replayed
      rw [List.append_nil, reached]
      exact ⟨_, [], rfl, evaluates_evaluation q.circuit now⟩
    -- A stage writes a report and its evaluation together, so an earlier report has its own already.
    rcases List.append_eq_append_iff.mp split with ⟨middle, rfl, new⟩ | ⟨middle, old, new⟩
    · exact newest new
    · cases middle with
      | nil =>
          rw [List.append_nil] at old
          subst old
          have first := @newest [] rest new.symm
          rwa [List.append_nil] at first
      | cons e' middle =>
          obtain ⟨rfl, rfl⟩ := List.cons.inj new
          obtain ⟨next, later, rfl, evaluates⟩ := audited.followed front e middle old reports
          exact ⟨next, later ++ _, rfl, evaluates⟩
  · intro unstarted
    have before : p.started = false := by
      have tally := step.started coherent
      rw [unstarted] at tally
      exact Bool.toNat_eq_zero.mp (Nat.eq_zero_of_add_eq_zero_right tally.symm)
    rw [satisfied, untold before, audited.fresh before]
    rfl

theorem Course.audited (course : Course .new stages p)
    (kept : ∀ s ∈ stages, s.registers = true → s.before.started = false) :
    Audited (trail stages) p := by
  induction course with
  | refl => exact ⟨rfl, by simp [trail, appended], fun _ => rfl⟩
  | step course taken ih =>
      obtain ⟨earlier, newest⟩ := List.forall_mem_append.mp kept
      rw [trail_snoc]
      exact (ih earlier).step course.coherent.1 (step_of_step? taken)
        (newest _ (List.mem_singleton_self _))

/-- The log of a circuit whose conditions are not replaced after its start, as long as nothing in it was
overwritten. What its entries report on conditions, one after the other, is what is satisfied. Right after
each of these stands that of an evaluation, for what is satisfied then. As many runs are completed by the
entries as are counted, and with those that failed they are the executed ones, of which one may still be
due or worked on until the start has ended. -/
theorem log_is_audit_trail (course : Course .new stages p)
    (kept : ∀ s ∈ stages, s.registers = true → s.before.progress = .unstarted)
    (unwrapped : (appended stages).length ≤ Log.Ring.standardCapacity) :
    replay (p.circuit.entries none) = p.circuit.satisfied ∧
    (∀ front e rest, p.circuit.entries none = front ++ e :: rest → e.report? ≠ none →
      ∃ next later, rest = next :: later ∧ Evaluates next (replay (front ++ [e]))) ∧
    (p.circuit.entries none).countP Log.Entry.completes = p.circuit.counters.completed ∧
    (p.circuit.entries none).countP Log.Entry.completes +
      (p.circuit.entries none).countP Log.Entry.fails + p.queued + p.flying =
        p.circuit.counters.executed ∧
    (∀ result, p.progress = .ended result →
      (p.circuit.entries none).countP Log.Entry.completes +
        (p.circuit.entries none).countP Log.Entry.fails = p.circuit.counters.executed) := by
  have audited := course.audited fun s member registers =>
    started_eq_false_iff.mpr (kept s member registers)
  have account := course.account
  have ⟨completes, fails⟩ := course.countP_trail
  have entries : p.circuit.entries none = trail stages := course.entries_eq unwrapped
  have executed : (trail stages).countP Log.Entry.completes + (trail stages).countP Log.Entry.fails +
      p.queued + p.flying = p.circuit.counters.executed := by
    have claimed := account.claimed
    have called := account.called
    rw [completes, fails, account.executed]
    omega
  rw [entries]
  refine ⟨audited.replayed, audited.followed, completes.trans account.completed.symm, executed, ?_⟩
  intro result ended
  simpa [queued, flying, ended] using executed

theorem sampleRuns_are_audited :
    ∃ stages p, Course .new stages p ∧ (appended stages).length = 11 ∧
      p.circuit.satisfied.ids = [1] ∧ replay (p.circuit.entries none) = p.circuit.satisfied ∧
      (p.circuit.entries none).countP Log.Entry.completes = 1 ∧
      (p.circuit.entries none).countP Log.Entry.fails = 1 := by
  have followed : (sample sampleRuns).any fun run =>
      run.1.all (fun s => !s.registers || !s.before.started) &&
        (appended run.1).length = 11 && run.2.circuit.satisfied.ids = [1] &&
        run.2.circuit.counters.executed = 2 && run.2.circuit.counters.completed = 1 &&
        run.2.result?.isSome := by decide +kernel
  simp only [Option.any_eq_true, Bool.and_eq_true, decide_eq_true_eq, List.all_eq_true] at followed
  obtain ⟨⟨stages, p⟩, sampled, ⟨⟨⟨⟨quiet, length⟩, ids⟩, executed⟩, completed⟩, ended⟩ :=
    followed
  obtain ⟨result, ended⟩ := Option.isSome_iff_exists.mp ended
  simp only at length executed completed
  have course := course_of_follow sampled
  have kept : ∀ s ∈ stages, s.registers = true → s.before.progress = .unstarted := by
    intro s member registers
    have unstarted := quiet s member
    rw [registers, Bool.not_true, Bool.false_or, Bool.not_eq_true'] at unstarted
    exact started_eq_false_iff.mp unstarted
  obtain ⟨replayed, -, completes, -, runs⟩ :=
    log_is_audit_trail course kept (by rw [length]; decide)
  have runs := runs result (result?_eq_some_iff.mp ended)
  exact ⟨stages, p, course, length, ids, replayed, by omega, by omega⟩

end Process
end Circuit
end Tripwire
