import Tripwire.Proofs.Circuit.Stopping

/-!
# Exhausted constraints

The constraints of a circuit are looked at after a run, and not before it. So when they are exhausted,
because their window is over, their bounds are reached or tighter ones were set, one more run may get
through, which then stops the circuit. It cannot if a run is on its way.
-/
namespace Tripwire

namespace Time.Instant

variable {a b c : Instant}

theorem le_def : a ≤ b ↔ a.seconds < b.seconds ∨ (a.seconds = b.seconds ∧ a.nanos ≤ b.nanos) :=
  Iff.rfl

theorem le_trans (left : a ≤ b) (right : b ≤ c) : a ≤ c := by
  rw [le_def] at left right ⊢
  omega

end Time.Instant

namespace Run

variable {constraints : Constraints} {counters counters' : Counters} {now later : Time.Instant}

namespace Constraints

theorem isSome_exhausted? (constraints : Constraints) (counters : Counters) (now : Time.Instant) :
    (constraints.exhausted? counters now).isSome =
      (constraints.maxExecutions?.any (· ≤ counters.executed) || !constraints.allows now ||
        constraints.maxCompletions?.any (· ≤ counters.completed)) := by
  unfold exhausted?
  split <;> rename_i executions
  · simp [executions]
  · split <;> rename_i window
    · simp [window]
    · split <;> simp_all

theorem allows_iff : constraints.allows now = true ↔
    (∀ first, constraints.start? = some first → first ≤ now) ∧
      ∀ last, constraints.stop? = some last → now ≤ last := by
  simp [allows, Time.within, Option.all_eq_true]

theorem allows_of_exhausted? (within : constraints.exhausted? counters now = .none) :
    constraints.allows now = true := by
  have open_ := isSome_exhausted? constraints counters now
  rw [within] at open_
  cases allows : constraints.allows now with
  | true => rfl
  | false => simp [allows] at open_

theorem exhausted?_of_past {last : Time.Instant} (ends : constraints.stop? = some last)
    (past : ¬now ≤ last) : (constraints.exhausted? counters now).isSome := by
  have closed : constraints.allows now = false := by
    rw [Bool.eq_false_iff, Ne, allows_iff]
    exact fun within => past (within.2 last ends)
  rw [isSome_exhausted?, closed]
  simp

theorem reached_mono {most? : Option Nat} {few many : Nat} (le : few ≤ many)
    (reached : most?.any (· ≤ few) = true) : most?.any (· ≤ many) = true := by
  cases most? with
  | none => cases reached
  | some most =>
      simp only [Option.any_some, decide_eq_true_eq] at reached ⊢
      exact Nat.le_trans reached le

theorem exhausted?_mono (begun : ∀ first, constraints.start? = some first → first ≤ now)
    (executed : counters.executed ≤ counters'.executed)
    (completed : counters.completed ≤ counters'.completed) (after : now ≤ later)
    (exhausted : (constraints.exhausted? counters now).isSome) :
    (constraints.exhausted? counters' later).isSome := by
  rw [isSome_exhausted?, Bool.or_eq_true, Bool.or_eq_true] at exhausted ⊢
  rcases exhausted with (executions | window) | completions
  · exact .inl (.inl (reached_mono executed executions))
  · refine .inl (.inr ?_)
    rw [Bool.not_eq_true', ← Bool.not_eq_true, allows_iff] at window ⊢
    rintro ⟨-, within⟩
    exact window ⟨begun, fun last ends => Time.Instant.le_trans after (within last ends)⟩
  · exact .inr (reached_mono completed completions)

end Constraints

theorem Gate.exhausted?_mono {gate : Gate}
    (begun : ∀ constraints first, gate = some constraints → constraints.start? = some first →
      first ≤ now)
    (executed : counters.executed ≤ counters'.executed)
    (completed : counters.completed ≤ counters'.completed) (after : now ≤ later)
    (exhausted : (gate.exhausted? counters now).isSome) :
    (gate.exhausted? counters' later).isSome := by
  cases gate with
  | none => cases exhausted
  | some constraints =>
      exact Constraints.exhausted?_mono (fun first => begun constraints first rfl) executed completed
        after exhausted

end Run

namespace Circuit.Process

variable {p q : Process} {now : Time.Instant} {event : Event} {stages earlier : List Stage}

theorem Course.of_snoc {s : Stage} (course : Course p (stages ++ [s]) q) :
    Course p stages s.before ∧ q = s.after := by
  generalize same : stages ++ [s] = whole at course
  cases course with
  | refl => simp at same
  | step course taken =>
      obtain ⟨rfl, last⟩ := List.append_inj' same rfl
      cases last
      exact ⟨course, rfl⟩

theorem Course.split {first second : List Stage} (course : Course p (first ++ second) q) :
    ∃ middle, Course p first middle ∧ Course middle second q := by
  induction second using List.reverseRecOn generalizing q with
  | nil => exact ⟨q, by simpa using course, .refl⟩
  | append_singleton second s ih =>
      rw [← List.append_assoc] at course
      obtain ⟨before, rfl⟩ := course.of_snoc
      obtain ⟨middle, left, right⟩ := ih before
      exact ⟨middle, left, .step right (step?_of_step (course.taken (by simp)))⟩

theorem Step.gate (step : Step now p event q)
    (kept : (⟨p, now, event, q⟩ : Stage).constrains = false) :
    q.circuit.gate = p.circuit.gate := by
  rcases step.frame with operation | ⟨same, -⟩
  · apply operation.gate
    rintro constraints rfl
    cases kept
  · exact same

theorem Course.gate (course : Course p stages q) (kept : ∀ s ∈ stages, s.constrains = false) :
    q.circuit.gate = p.circuit.gate ∧ ∀ s ∈ stages, s.after.circuit.gate = p.circuit.gate := by
  induction course with
  | refl => exact ⟨rfl, by simp⟩
  | @step stages q r now event course taken ih =>
      obtain ⟨held, passed⟩ := ih fun s member => kept s (List.mem_append_left _ member)
      have newest := kept _ (List.mem_append_right _ (List.mem_singleton_self _))
      have after := ((step_of_step? taken).gate newest).trans held
      refine ⟨after, ?_⟩
      intro s member
      rcases List.mem_append.mp member with earlier | last
      · exact passed s earlier
      · rw [List.mem_singleton.mp last]
        exact after

theorem Course.counters_le (course : Course p stages q) (coherent : Coherent p) :
    p.circuit.counters.executed ≤ q.circuit.counters.executed ∧
      p.circuit.counters.completed ≤ q.circuit.counters.completed := by
  induction course with
  | refl => exact ⟨Nat.le_refl _, Nat.le_refl _⟩
  | step course taken ih =>
      have tally := (step_of_step? taken).tally (course.invariant Step.coherent coherent).1
      have executed := tally.executed
      have completed := tally.completed
      simp only at executed completed
      omega

theorem Course.exits {since : Time.Instant} (course : Course p stages q) (coherent : Coherent p)
    (begun : ∀ constraints first, p.circuit.gate = some constraints →
      constraints.start? = some first → first ≤ since)
    (exhausted : (p.circuit.gate.exhausted? p.circuit.counters since).isSome)
    (kept : ∀ s ∈ stages, s.constrains = false) (after : ∀ s ∈ stages, since ≤ s.now) :
    ∀ s ∈ stages, s.Exits := by
  intro s member
  obtain ⟨first, rest, rfl⟩ := List.append_of_mem member
  rw [← List.singleton_append, ← List.append_assoc] at course
  obtain ⟨middle, before, -⟩ := course.split
  obtain rfl := before.of_snoc.2
  obtain ⟨executed, completed⟩ := before.counters_le coherent
  have held := (before.gate fun t member => kept t (by simp at member ⊢; tauto)).1
  -- The gate is still the one that was exhausted, and its counters have only grown.
  rw [Stage.Exits, held]
  exact Run.Gate.exhausted?_mono begun executed completed (after s member) exhausted

def live (p : Process) : Bool :=
  match p.progress with
  | .opening .. | .between _ | .cycling _ => true
  | _ => false

theorem Step.live {constraints : Run.Constraints} (step : Step now p event q)
    (held : p.circuit.gate = some constraints) (alive : q.live = true) :
    p.live = true ∨ constraints.allows now = true := by
  cases step with
  | operate progress operation => exact .inl alive
  | request progress begun keyless | enter progress begun keyed =>
      obtain ⟨-, -, unexhausted, -⟩ := begin_running begun
      have held : _ = some constraints := held
      rw [held] at unexhausted
      exact .inr (Run.Constraints.allows_of_exhausted? unexhausted)
  | forgo | deny | halt | fail | end_ => cases alive
  | _ => exact .inl rfl

theorem Course.opened_within {constraints : Run.Constraints} (course : Course p stages q)
    (unstarted : p.progress = .unstarted) (held : p.circuit.gate = some constraints)
    (kept : ∀ s ∈ stages, s.constrains = false) (alive : q.live = true) :
    ∃ s ∈ stages, constraints.allows s.now = true := by
  induction course with
  | refl => simp [Process.live, unstarted] at alive
  | @step stages q r now event course taken ih =>
      have earlier : ∀ s ∈ stages, s.constrains = false :=
        fun s member => kept s (List.mem_append_left _ member)
      have gate := (course.gate earlier).1.trans held
      rcases (step_of_step? taken).live gate alive with alive | allows
      · obtain ⟨s, member, allows⟩ := ih earlier alive
        exact ⟨s, List.mem_append_left _ member, allows⟩
      · exact ⟨_, List.mem_append_right _ (List.mem_singleton_self _), allows⟩

theorem live_of_cycling (cycling : p.Cycling) : p.live = true := by
  obtain ⟨cycle, progress⟩ := cycling
  simp [live, progress]

theorem split_clock (last : Time.Instant) (clock : stages.Pairwise (·.now ≤ ·.now)) :
    ∃ early late, stages = early ++ late ∧ (∀ s ∈ early, s.now ≤ last) ∧
      ∀ s ∈ late, ¬s.now ≤ last := by
  induction stages with
  | nil => exact ⟨[], [], rfl, by simp, by simp⟩
  | cons s rest ih =>
      obtain ⟨after, clock⟩ := List.pairwise_cons.mp clock
      by_cases within : s.now ≤ last
      · obtain ⟨early, late, rfl, before, past⟩ := ih clock
        exact ⟨s :: early, late, rfl, List.forall_mem_cons.mpr ⟨within, before⟩, past⟩
      · refine ⟨[], s :: rest, rfl, by simp, List.forall_mem_cons.mpr ⟨within, ?_⟩⟩
        intro t member ends
        exact within (Time.Instant.le_trans (after t member) ends)

/-- If from a moment on the constraints in force are always exhausted, one more call is made at most, and
none if the executor works on one. They are from the moment on at which they are found exhausted in their
window or after it, unless they are replaced. So of the constraints a circuit is started with, the end
lets one call through at most that begins later, and the start none that begins earlier. -/
theorem exhausted_gate_lets_one_call_through (course : Course .new earlier p)
    (later : Course p stages q) :
    ((∀ s ∈ stages, s.Exits) → stages.countP Stage.calls ≤ 1 ∧
      ∀ contentHash, p.inFlight? = some contentHash → stages.countP Stage.calls = 0) ∧
    (∀ since, (p.circuit.gate.exhausted? p.circuit.counters since).isSome →
      (∀ constraints first, p.circuit.gate = some constraints → constraints.start? = some first →
        first ≤ since) →
      (∀ s ∈ stages, s.constrains = false) → (∀ s ∈ stages, since ≤ s.now) →
      ∀ s ∈ stages, s.Exits) ∧
    (∀ constraints, p.progress = .unstarted → p.circuit.gate = some constraints →
      (∀ s ∈ stages, s.constrains = false) → stages.Pairwise (·.now ≤ ·.now) →
      (∀ last, constraints.stop? = some last →
        stages.countP (fun s => s.calls && !decide (s.now ≤ last)) ≤ 1) ∧
      ∀ first, constraints.start? = some first → ∀ s ∈ stages, s.calls = true → first ≤ s.now) := by
  have coherent := course.coherent.1
  refine ⟨?_, ?_, ?_⟩
  · intro exits
    obtain ⟨once, spent⟩ := later.countP_calls coherent fun s member => .inr (exits s member)
    exact ⟨once, fun _ flying => spent (spent_of_inFlight? coherent flying)⟩
  · intro since exhausted begun kept after
    exact later.exits coherent begun exhausted kept after
  · intro constraints unstarted held kept clock
    constructor
    · intro last ends
      -- After the end every stage exits, and before it no call counts.
      obtain ⟨early, late, rfl, within, past⟩ := split_clock last clock
      obtain ⟨middle, before, after⟩ := later.split
      have exits : ∀ s ∈ late, s.Exits := by
        intro s member
        have gate := (later.gate kept).2 s (List.mem_append_right _ member)
        rw [Stage.Exits, gate, held]
        exact Run.Constraints.exhausted?_of_past ends (past s member)
      have reached := (before.invariant Step.coherent coherent).1
      obtain ⟨once, -⟩ := after.countP_calls reached fun s member => .inr (exits s member)
      have none : early.countP (fun s => s.calls && !decide (s.now ≤ last)) = 0 := by
        rw [List.countP_eq_zero]
        intro s member
        simp [within s member]
      have fewer : late.countP (fun s => s.calls && !decide (s.now ≤ last)) ≤
          late.countP Stage.calls :=
        List.countP_mono_left fun s _ counted => (Bool.and_eq_true_iff.mp counted).1
      rw [List.countP_append]
      omega
    · intro first starts s member calls
      obtain ⟨before, after, rfl⟩ := List.append_of_mem member
      have alive := live_of_cycling ((later.taken member).cycling_of_calls calls)
      have parted := later
      rw [← List.singleton_append, ← List.append_assoc] at parted
      obtain ⟨middle, upTo, -⟩ := parted.split
      -- Cycles begin only once the window was found open.
      obtain ⟨t, opened, allows⟩ := upTo.of_snoc.1.opened_within unstarted held
        (fun t member => kept t (List.mem_append_left _ member)) alive
      have ordered := (List.pairwise_append.mp clock).2.2 t opened s List.mem_cons_self
      exact Time.Instant.le_trans ((Run.Constraints.allows_iff.mp allows).1 first starts) ordered

def sampleWindow : Run.Constraints := ⟨none, none, some ⟨1, 0⟩, some ⟨9, 0⟩⟩

def sampleSecondRun : List Event :=
  sampleStart.drop 3 ++ [.next, .matched 0, .call, .answered (.ok .null), .settled 0 none, .close,
    .leave, .next, .matched 0, .call, .answered (.ok .null), .abandon, .close, .leave]

def timed (events : List Event) : List (Time.Instant × Event) :=
  events.zipIdx.map fun numbered => (⟨numbered.2 + 1, 0⟩, numbered.1)

theorem sampleWindow_lets_one_call_through :
    ∃ earlier p stages q, Course .new earlier p ∧ p.circuit.gate = some sampleWindow ∧
      Course p stages q ∧ stages.countP Stage.calls = 2 ∧
      stages.countP (fun s => s.calls && !decide (s.now ≤ ⟨9, 0⟩)) = 1 ∧
      ∀ s ∈ stages, s.calls = true → ⟨1, 0⟩ ≤ s.now := by
  have followed : (sample (.setConstraints sampleWindow :: sampleStart.take 3)).any fun before =>
      !before.2.started && before.2.circuit.gate = some sampleWindow &&
        (before.2.follow (timed sampleSecondRun)).any fun run =>
          run.1.all (fun s => s.constrains = false) && run.1.Pairwise (·.now ≤ ·.now) &&
            run.1.countP Stage.calls = 2 &&
            run.1.any fun s => s.calls && !decide (s.now ≤ ⟨9, 0⟩) := by decide +kernel
  simp only [Option.any_eq_true, Bool.and_eq_true, decide_eq_true_eq, List.all_eq_true,
    Bool.not_eq_true'] at followed
  obtain ⟨⟨earlier, p⟩, before, ⟨unstarted, held⟩, ⟨stages, q⟩, after, ⟨⟨kept, clock⟩, calls⟩,
    past⟩ := followed
  have course := course_of_follow before
  have later := course_of_follow after
  obtain ⟨-, -, window⟩ := exhausted_gate_lets_one_call_through course later
  obtain ⟨once, first⟩ := window sampleWindow (started_eq_false_iff.mp unstarted) held kept clock
  obtain ⟨s, member, counted⟩ := List.any_eq_true.mp past
  have some : 0 < stages.countP (fun s => s.calls && !decide (s.now ≤ ⟨9, 0⟩)) :=
    List.countP_pos_iff.mpr ⟨s, member, counted⟩
  exact ⟨earlier, p, stages, q, course, held, later, calls,
    Nat.le_antisymm (once ⟨9, 0⟩ rfl) some, first ⟨1, 0⟩ rfl⟩

end Circuit.Process
end Tripwire
