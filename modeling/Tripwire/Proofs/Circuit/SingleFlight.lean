import Tripwire.Proofs.Circuit.Accounting

/-!
# One run in a cycle

A cycle hands a run to the executor exactly if one of its evaluations fires: the first one that does
takes the run, whether a report or the end of the cycle has brought it about. The executor never works
on two runs at a time.
-/
namespace Tripwire.Circuit

variable {c c' r : Circuit} {now : Time.Instant} {event : Event}

/-! ## Evaluations in the log -/

def Note.outcome? : Note → Option Condition.Outcome
  | .evaluated _ outcome _ _ => some outcome
  | _ => none

/-- Further notes were written, those of evaluations with the given outcomes. -/
def Wrote (c c' : Circuit) (outcomes : List Condition.Outcome) : Prop :=
  ∃ notes : List Noted, c'.log = notes.foldl Log.Ring.append c.log ∧
    notes.filterMap (·.note.outcome?) = outcomes

theorem Wrote.refl (same : c'.log = c.log) : Wrote c c' [] := ⟨[], same, rfl⟩

theorem Wrote.note {note : Note} (same : c'.log = c.log.append ⟨note, now⟩)
    (plain : note.outcome? = none) : Wrote c c' [] :=
  ⟨[⟨note, now⟩], same, by simp [plain]⟩

theorem wrote_evaluated (c : Circuit) (now : Time.Instant) :
    Wrote c (c.evaluated now) [c.outcome] :=
  ⟨[⟨c.evaluation, now⟩], rfl, rfl⟩

theorem Wrote.trans {first second : List Condition.Outcome} (left : Wrote c c' first)
    (right : Wrote c' r second) : Wrote c r (first ++ second) := by
  obtain ⟨notes, earlier, rfl⟩ := left
  obtain ⟨further, later, rfl⟩ := right
  exact ⟨notes ++ further, by rw [later, earlier, List.foldl_append], by simp⟩

theorem wrote_begin (c : Circuit) (now : Time.Instant) : Wrote c (c.begin now).1 [] := by
  unfold begin
  split
  · exact .note rfl rfl
  · split
    · exact .note rfl rfl
    · split
      · exact .note rfl rfl
      · exact .refl rfl

theorem wrote_finishRun (c : Circuit) (now : Time.Instant) (contentHash : String)
    (answer : Except RunFailure Value) : Wrote c (c.finishRun now contentHash answer) [] := by
  cases answer with
  | error failure => exact .note rfl rfl
  | ok response =>
      have completed : Wrote c ({ c with
          counters := { c.counters with completed := c.counters.completed + 1 } }.write now
            (.runCompleted contentHash response)) [] := .note rfl rfl
      unfold finishRun
      simp only
      split
      · exact completed.trans (.note rfl rfl)
      · exact completed

theorem wrote_openSession (c : Circuit) (now : Time.Instant) (options : Options) (key : String) :
    Wrote c (Process.openSession c now options key).circuit [] := by
  unfold Process.openSession
  split
  · exact .refl rfl
  · exact .note rfl rfl

theorem Operation.wrote (operation : Operation now c event c') : Wrote c c' [] := by
  cases operation with
  | setConditions watchers =>
      obtain ⟨status, same⟩ := setConditions_eq c watchers
      exact .refl (by rw [same])
  | setActions actions =>
      rcases setActions_cases c now actions with ⟨script, same⟩ | ⟨fault, same⟩
      · exact .refl (by rw [same, refresh_eq])
      · rw [same]
        exact .note rfl rfl
  | refuse options faulty => exact .note rfl rfl
  | _ => exact .refl rfl

namespace Process

variable {p q : Process} {stages : List Stage}

/-! ## Evaluations and the flag of the cycle -/

def Stage.fires (s : Stage) : Bool := s.evaluates?.any Circuit.fires

theorem Stage.fires_iff {s : Stage} : s.fires = true ↔ s.outcome? = some .fire := by
  cases evaluated : s.evaluates? with
  | none => simp [Stage.fires, Stage.outcome?, evaluated]
  | some c =>
      simp only [Stage.fires, Stage.outcome?, evaluated, Option.any_some, Option.map_some,
        Option.some.injEq]
      exact Circuit.fires_iff

theorem Stage.fired_of_evaluates? {s : Stage} {c : Circuit} (evaluated : s.evaluates? = some c) :
    c.fired = s.before.circuit.fired := by
  unfold Stage.evaluates? at evaluated
  split at evaluated
  · cases evaluated; rfl
  · cases evaluated; rfl
  · split at evaluated <;> cases evaluated; rfl
  · cases evaluated

theorem Stage.claims_eq (s : Stage) : s.claims = (s.fires && !s.before.circuit.fired) := by
  cases evaluated : s.evaluates? with
  | none => simp [Stage.claims, Stage.fires, evaluated]
  | some c =>
      rw [Stage.claims_of_evaluates? evaluated, Stage.fired_of_evaluates? evaluated]
      simp [Stage.fires, evaluated]

def Cycling (p : Process) : Prop := ∃ cycle, p.progress = .cycling cycle

instance : DecidablePred Cycling := fun p =>
  match stage : p.progress with
  | .cycling cycle => .isTrue ⟨cycle, stage⟩
  | .unstarted | .opening .. | .between _ | .ended _ => .isFalse (by simp [Cycling, stage])

theorem not_cycling_openSession {c : Circuit} {options : Options} {key : String} :
    ¬(openSession c now options key).Cycling := by
  rcases openSession_cases c now options key with ⟨-, opened⟩ | ⟨fault, refused⟩
  · simp [opened, Cycling]
  · simp [refused, Cycling, finish]

theorem Step.fired (step : Step now p event q) (before : p.Cycling) (after : q.Cycling) :
    q.circuit.fired = (p.circuit.fired || (⟨p, now, event, q⟩ : Stage).fires) := by
  cases step with
  | operate progress operation =>
      rw [operation.frame.2.1]
      cases operation <;> exact (Bool.or_false _).symm
  | report observes report => cases report <;> rfl
  | release release => cases release <;> exact (Bool.or_false _).symm
  | abandon cycle stopped => exact (Bool.or_false _).symm
  | call idle queued requested => exact (Bool.or_false _).symm
  | @answer c _ contentHash flying answer =>
      cases answer with
      | ok response =>
          obtain ⟨log, finished⟩ := finishRun_ok c now contentHash response
          rw [finished]
          exact (Bool.or_false _).symm
      | error failure => exact (Bool.or_false _).symm
  | skip settled drained unclosed stopped => simp [Stage.fires, Stage.evaluates?, stopped]
  | close settled drained unclosed going =>
      simp [Stage.fires, Stage.evaluates?, going, Circuit.evaluated]
  | forgo | request | fail | end_ | pause => simp [Cycling, finish] at after
  | enter => exact absurd after not_cycling_openSession
  | issue | deny | halt | begin => simp [Cycling] at before

theorem Step.wrote (step : Step now p event q) :
    Wrote p.circuit q.circuit (⟨p, now, event, q⟩ : Stage).outcome?.toList := by
  cases step with
  | operate progress operation =>
      have wrote := operation.wrote
      cases operation <;> exact wrote
  | @forgo c _ progress options begun =>
      have wrote := wrote_begin c now
      rw [begun] at wrote
      exact wrote
  | @request c _ options progress begun keyless =>
      have wrote := wrote_begin c now
      rw [begun] at wrote
      exact wrote
  | @enter c _ options key progress begun keyed =>
      have wrote := wrote_begin c now
      rw [begun] at wrote
      exact wrote.trans (wrote_openSession _ now options key)
  | @issue c contentHash options identity =>
      have issued : Wrote c (c.write now (.identityIssued identity)) [] := .note rfl rfl
      exact issued.trans (wrote_openSession _ now options identity.publicKey)
  | deny contentHash options refusal => exact .note rfl rfl
  | @report c r cycle _ _ observes report =>
      have recorded : Wrote c r [] := by cases report <;> exact .note rfl rfl
      have wrote := recorded.trans (wrote_evaluated r now)
      cases report <;> exact wrote
  | release release =>
      cases release with
      | settled observes => exact .refl rfl
      | failed error found => exact .note rfl rfl
      | cutOff bounded observes => exact .note rfl rfl
  | answer flying answer =>
      cases answer <;> exact wrote_finishRun _ now _ _
  | skip settled drained unclosed stopped =>
      simp only [Stage.outcome?, Stage.evaluates?, stopped, if_true]
      exact .refl rfl
  | @close c cycle settled drained unclosed going =>
      simp only [Stage.outcome?, Stage.evaluates?, going, Bool.false_eq_true, if_false]
      exact wrote_evaluated c now
  | _ => exact .refl rfl

/-! ## The stages of a cycle -/

def Stage.closes (s : Stage) : Bool :=
  match s.event with
  | .close => true
  | _ => false

def closed (p : Process) : Bool :=
  match p.progress with
  | .cycling cycle => cycle.closed
  | _ => true

theorem Step.closed (step : Step now p event q) (coherent : Coherent p) (before : p.Cycling) :
    q.closed.toNat = p.closed.toNat + (⟨p, now, event, q⟩ : Stage).closes.toNat := by
  cases step with
  | operate progress operation => cases operation <;> rfl
  | report observes report => cases report <;> rfl
  | release release => cases release <;> rfl
  | skip settled drained unclosed stopped => simp [Process.closed, Stage.closes, unclosed]
  | close settled drained unclosed going => simp [Process.closed, Stage.closes, unclosed]
  | fail closed drained failed => simp [Process.closed, Stage.closes, closed, finish]
  | end_ closed drained unfailed stopped => simp [Process.closed, Stage.closes, closed, finish]
  | pause closed drained unfailed going => simp [Process.closed, Stage.closes, closed]
  | forgo progress options begun =>
      obtain ⟨startable, -⟩ := begin_over begun
      obtain rfl := coherent.unstarted_of_isOpen (isOpen_of_startFault? startable)
      simp [Cycling] at before
  | request progress begun keyless | enter progress begun keyed =>
      obtain ⟨startable, -⟩ := begin_running begun
      obtain rfl := coherent.unstarted_of_isOpen (isOpen_of_startFault? startable)
      simp [Cycling] at before
  | issue | deny | halt | begin => simp [Cycling] at before
  | _ => rfl

structure CycleTally (stages : List Stage) (q : Process) : Prop where
  fired : q.Cycling → q.circuit.fired = stages.any Stage.fires
  handed : stages.countP Stage.calls + q.queued = (stages.any Stage.fires).toNat
  closed : stages.countP Stage.closes = q.closed.toNat

theorem cycleTally_begin {o : Process} (begun : Step now o .next p) (cycling : p.Cycling) :
    CycleTally [] p := by
  cases begun with
  | operate progress operation => cases operation
  | report observes report => cases report
  | release release => cases release
  | halt pause? stopped => simp [Cycling, finish] at cycling
  | begin pause? going => exact ⟨fun _ => rfl, rfl, rfl⟩

theorem CycleTally.step (tally : CycleTally stages p) (coherent : Coherent p) (cycling : p.Cycling)
    (step : Step now p event q) : CycleTally (stages ++ [⟨p, now, event, q⟩]) q := by
  have queued := (step.tally coherent).queued
  have closed := step.closed coherent cycling
  have fired := step.fired cycling
  have claims := Stage.claims_eq ⟨p, now, event, q⟩
  simp only at queued closed fired claims
  generalize (⟨p, now, event, q⟩ : Stage) = s at *
  rw [tally.fired cycling] at fired claims
  constructor
  · intro after
    simp [fired after]
  · have handed := tally.handed
    rw [claims] at queued
    -- Only the first evaluation that fires counts on both sides.
    have once (spent fires : Bool) :
        (spent || fires).toNat = spent.toNat + (fires && !spent).toNat := by
      cases spent <;> cases fires <;> rfl
    rw [countP_snoc, List.any_append, List.any_cons, List.any_nil, Bool.or_false, once]
    omega
  · rw [countP_snoc, tally.closed, closed]

theorem Coherent.cycleTally {o : Process} (begins : Coherent o)
    (begun : o.step? now .next = some p) (cycling : p.Cycling) (cycle : Course p stages q)
    (within : ∀ s ∈ stages, s.before.Cycling) : Coherent q ∧ CycleTally stages q := by
  induction cycle with
  | refl =>
      have began := step_of_step? begun
      exact ⟨began.coherent begins, cycleTally_begin began cycling⟩
  | step _ taken ih =>
      obtain ⟨coherent, tally⟩ := ih fun s member => within s (List.mem_append_left _ member)
      have taken := step_of_step? taken
      exact ⟨taken.coherent coherent,
        tally.step coherent (within _ (List.mem_append_right _ (List.mem_singleton_self _))) taken⟩

theorem Course.cycleTally {o : Process} {earlier : List Stage} (course : Course .new earlier o)
    (begun : o.step? now .next = some p) (cycling : p.Cycling) (cycle : Course p stages q)
    (within : ∀ s ∈ stages, s.before.Cycling) : Coherent q ∧ CycleTally stages q :=
  course.coherent.1.cycleTally begun cycling cycle within

def Stage.answers (s : Stage) : Bool := s.succeeds || s.fails

theorem countP_answers (stages : List Stage) :
    stages.countP Stage.answers = stages.countP Stage.succeeds + stages.countP Stage.fails := by
  induction stages with
  | nil => rfl
  | cons s rest ih =>
      have apart : ¬(s.succeeds = true ∧ s.fails = true) := by
        obtain ⟨_, _, event, _⟩ := s
        cases event with
        | answered answer => cases answer <;> simp [Stage.succeeds, Stage.fails, Stage.failure?]
        | _ => simp [Stage.succeeds]
      simp only [List.countP_cons, ih, Stage.answers]
      by_cases succeeds : s.succeeds = true <;> by_cases fails : s.fails = true <;>
        simp_all <;> omega

theorem Course.flying (course : Course .new stages p) :
    stages.countP Stage.calls = stages.countP Stage.answers + p.flying ∧ p.flying ≤ 1 := by
  refine ⟨by rw [course.account.called, countP_answers], ?_⟩
  unfold Process.flying
  split
  · exact Bool.toNat_le _
  · exact Nat.zero_le _

theorem Step.closing (step : Step now p event q) (closes : event = .close) :
    ∃ cycle, p.progress = .cycling cycle ∧ cycle.observing = [] ∧ cycle.drained = true := by
  subst closes
  cases step with
  | operate progress operation => cases operation
  | report observes report => cases report
  | release release => cases release
  | skip settled drained => exact ⟨_, rfl, settled, drained⟩
  | close settled drained => exact ⟨_, rfl, settled, drained⟩

theorem Coherent.callable (coherent : Coherent p) (queued : 0 < p.queued) (now : Time.Instant) :
    ∃ q, p.step? now .call = some q := by
  cases coherent with
  | @cycling c cycle running session sound =>
      obtain ⟨opened, found⟩ := Option.isSome_iff_exists.mp session
      have requested : c.request? = some (requestOf c.script opened) := by
        simp [Circuit.request?, found]
      have waiting : 0 < cycle.queued := queued
      exact ⟨_, step?_of_step (.call (sound.idle waiting) waiting requested)⟩
  | _ => exact absurd queued (Nat.lt_irrefl 0)

/-- A cycle hands over one run at most, and it does so exactly if one of its evaluations fires. They are
made after each report and, unless the circuit is to stop, once when observations and runs are over. -/
theorem cycle_hands_over_one_run {o : Process} {earlier : List Stage}
    (course : Course .new earlier o) (begun : o.step? now .next = some p) (cycling : p.Cycling)
    (cycle : Course p stages q) (within : ∀ s ∈ stages, s.before.Cycling) :
    stages.countP Stage.calls ≤ 1 ∧
    (earlier ++ ⟨o, now, .next, p⟩ :: stages).countP Stage.calls =
      (earlier ++ ⟨o, now, .next, p⟩ :: stages).countP Stage.answers + q.flying ∧
    q.flying ≤ 1 ∧
    stages.countP Stage.calls + q.queued =
      (if ∃ s ∈ stages, s.outcome? = some .fire then 1 else 0) ∧
    (0 < q.queued → ∀ later, ∃ r, q.step? later .call = some r) ∧
    (¬q.Cycling → (stages.countP Stage.calls = 1 ↔ ∃ s ∈ stages, s.outcome? = some .fire)) ∧
    (∀ s ∈ stages, Wrote s.before.circuit s.after.circuit s.outcome?.toList ∧
      s.outcome? = match s.event with
        | .matched index => some (Condition.decideOutcome
            (s.before.circuit.logic?.map (·.policy))
            (s.before.circuit.satisfied.insert (Condition.idOf index))
            s.before.circuit.watchers.length)
        | .unmatched index => some (Condition.decideOutcome
            (s.before.circuit.logic?.map (·.policy))
            (s.before.circuit.satisfied.erase (Condition.idOf index))
            s.before.circuit.watchers.length)
        | .close =>
            if s.before.circuit.stopped then none
            else some (Condition.decideOutcome (s.before.circuit.logic?.map (·.policy))
              s.before.circuit.satisfied s.before.circuit.watchers.length)
        | _ => none) ∧
    (∀ s ∈ stages, s.event = .close → ∃ cycle, s.before.progress = .cycling cycle ∧
      cycle.observing = [] ∧ cycle.drained = true) ∧
    (¬q.Cycling → stages.countP Stage.closes = 1) := by
  obtain ⟨coherent, tally⟩ := course.cycleTally begun cycling cycle within
  have whole := (Course.step course begun).trans cycle
  rw [List.append_assoc] at whole
  have flying := Course.flying whole
  have fires_iff : stages.any Stage.fires = true ↔ ∃ s ∈ stages, s.outcome? = some .fire := by
    simp only [List.any_eq_true, Stage.fires_iff]
  have handed : stages.countP Stage.calls + q.queued =
      if ∃ s ∈ stages, s.outcome? = some .fire then 1 else 0 := by
    rw [tally.handed]
    by_cases fire : ∃ s ∈ stages, s.outcome? = some .fire
    · rw [if_pos fire, fires_iff.mpr fire]
      rfl
    · rw [if_neg fire, Bool.eq_false_iff.mpr (fire ∘ fires_iff.mp)]
      rfl
  refine ⟨?_, ?_, flying.2, handed, coherent.callable, ?_, ?_, ?_, ?_⟩
  · split at handed <;> omega
  · rw [← List.singleton_append]
    exact flying.1
  · intro left
    have unqueued : q.queued = 0 := by
      unfold Process.queued
      split
      · rename_i cycle cycling
        exact absurd ⟨cycle, cycling⟩ left
      · rfl
    rw [unqueued, Nat.add_zero] at handed
    rw [handed]
    split
    · rename_i fire
      exact iff_of_true rfl fire
    · rename_i calm
      exact iff_of_false Nat.zero_ne_one calm
  · intro s member
    refine ⟨(cycle.taken member).wrote, ?_⟩
    obtain ⟨before, at_, event, after⟩ := s
    cases event with
    | close =>
        simp only [Stage.outcome?, Stage.evaluates?]
        split <;> rfl
    | _ => rfl
  · intro s member closes
    exact (cycle.taken member).closing closes
  · intro left
    have closed : q.closed = true := by
      unfold Process.closed
      split
      · rename_i cycle cycling
        exact absurd ⟨cycle, cycling⟩ left
      · rfl
    rw [tally.closed, closed]
    rfl

def sampleCycle : List Event :=
  [.matched 0, .call, .matched 0, .answered (.ok .null), .settled 0 none, .close, .leave]

theorem sampleCycle_hands_over_one_run :
    ∃ earlier o p stages q, Course .new earlier o ∧ o.step? ⟨0, 0⟩ .next = some p ∧
      Course p stages q ∧ ¬q.Cycling ∧ 1 < stages.countP Stage.fires ∧
      stages.countP Stage.calls = 1 ∧ stages.countP Stage.closes = 1 := by
  have followed : (sample sampleStart).any fun start =>
      (start.2.step? ⟨0, 0⟩ .next).any fun p => p.Cycling &&
        (p.follow (sampleCycle.map fun event => (⟨0, 0⟩, event))).any fun run =>
          run.1.all (fun s => s.before.Cycling) && ¬run.2.Cycling &&
            1 < run.1.countP Stage.fires := by decide +kernel
  simp only [Option.any_eq_true, Bool.and_eq_true, decide_eq_true_eq, List.all_eq_true] at followed
  obtain ⟨⟨earlier, o⟩, started, p, begun, cycling, ⟨stages, q⟩, cycle, ⟨within, left⟩, again⟩ :=
    followed
  have course := course_of_follow started
  have cycle := course_of_follow cycle
  obtain ⟨-, -, -, -, -, once, -, -, closes⟩ :=
    cycle_hands_over_one_run course begun cycling cycle within
  obtain ⟨s, member, fires⟩ := List.countP_pos_iff.mp (Nat.lt_trans Nat.zero_lt_one again)
  exact ⟨earlier, o, p, stages, q, course, begun, cycle, left, again,
    (once left).mpr ⟨s, member, Stage.fires_iff.mp fires⟩, closes left⟩

end Process
end Tripwire.Circuit
