import Tripwire.Proofs.Circuit.SingleFlight

/-!
# The bounds of the constraints

The counters of a circuit stay within the bounds that its constraints had when it was started. A claim
counts at once and a completed run only later, while the bounds are looked at before the first cycle and
after each run: what keeps the counters within them is how much room a cycle has left, by whether it has
fired, and whether its run is over.
-/
namespace Tripwire

namespace Run.Gate

variable {gate : Gate} {executed completed : Nat}

def maxExecutions? (gate : Gate) : Option Nat := gate.bind (·.maxExecutions?)

def maxCompletions? (gate : Gate) : Option Nat := gate.bind (·.maxCompletions?)

structure Covers (gate : Gate) (executed completed : Nat) : Prop where
  executed : ∀ most, gate.maxExecutions? = some most → executed ≤ most
  completed : ∀ most, gate.maxCompletions? = some most → completed ≤ most

theorem Covers.mono {fewer fewer' : Nat} (covers : gate.Covers executed completed)
    (left : fewer ≤ executed) (right : fewer' ≤ completed) : gate.Covers fewer fewer' :=
  ⟨fun most bounded => Nat.le_trans left (covers.executed most bounded),
    fun most bounded => Nat.le_trans right (covers.completed most bounded)⟩

theorem covers_zero (gate : Gate) : gate.Covers 0 0 :=
  ⟨fun most _ => Nat.zero_le most, fun most _ => Nat.zero_le most⟩

theorem covers_of_exhausted? {counters : Counters} {now : Time.Instant}
    (within : gate.exhausted? counters now = none) :
    gate.Covers (counters.executed + 1) (counters.completed + 1) := by
  cases gate with
  | none => exact ⟨by simp [maxExecutions?], by simp [maxCompletions?]⟩
  | some constraints =>
      simp only [exhausted?, Option.bind_some, Constraints.exhausted?] at within
      split at within
      · cases within
      · rename_i executions
        split at within
        · cases within
        · split at within
          · cases within
          · rename_i completions
            constructor
            · intro most bounded
              have bounded : constraints.maxExecutions? = some most := bounded
              have above : counters.executed < most := by simpa [bounded] using executions
              exact above
            · intro most bounded
              have bounded : constraints.maxCompletions? = some most := bounded
              have above : counters.completed < most := by simpa [bounded] using completions
              exact above

end Run.Gate

namespace Circuit

variable {c c' r : Circuit} {cycle cycle' : Cycle} {now : Time.Instant} {event : Event}
  {gate : Run.Gate}

structure Cycle.Within (gate : Run.Gate) (c : Circuit) (cycle : Cycle) : Prop where
  covered : gate.Covers c.counters.executed c.counters.completed
  unfired : c.fired = false →
    gate.Covers (c.counters.executed + 1) (c.counters.completed + 1)
  pending : 0 < cycle.queued + cycle.flying →
    gate.Covers c.counters.executed (c.counters.completed + 1)
  drained : c.stopped = false → cycle.drained = true →
    gate.Covers (c.counters.executed + 1) (c.counters.completed + 1)

namespace Cycle.Within

theorem congr (within : cycle.Within gate c) (counters : c'.counters = c.counters)
    (fired : c'.fired = c.fired) (stopped : c.stopped = true → c'.stopped = true)
    (queued : cycle'.queued = cycle.queued) (inFlight : cycle'.inFlight? = cycle.inFlight?) :
    cycle'.Within gate c' := by
  constructor
  · rw [counters]
    exact within.covered
  · rw [counters, fired]
    exact within.unfired
  · rw [counters, flying, queued, inFlight]
    exact within.pending
  · intro going
    have still : c.stopped = false := by
      cases raised : c.stopped with
      | false => rfl
      | true =>
          rw [stopped raised] at going
          cases going
    rw [counters, Cycle.drained, queued, inFlight]
    exact within.drained still

theorem evaluated (within : cycle.Within gate c)
    (queued : cycle'.queued = cycle.queued + (c.fires && !c.fired).toNat)
    (inFlight : cycle'.inFlight? = cycle.inFlight?) : cycle'.Within gate (c.evaluated now) := by
  cases claims : c.fires && !c.fired with
  | false =>
      rw [claims, Bool.toNat_false, Nat.add_zero] at queued
      have calm : c.fired = false → c.fires = false := by
        intro unfired
        simpa [unfired] using claims
      refine within.congr ?_ ?_ id queued inFlight
      · simp [Circuit.evaluated, claims]
      · cases spent : c.fired with
        | false => simp [Circuit.evaluated, calm spent, spent]
        | true => simp [Circuit.evaluated, spent]
  | true =>
      rw [claims, Bool.toNat_true] at queued
      simp only [Bool.and_eq_true, Bool.not_eq_true'] at claims
      obtain ⟨fires, unspent⟩ := claims
      have room := within.unfired unspent
      have counted : (c.evaluated now).counters = ⟨c.counters.executed + 1, c.counters.completed⟩ := by
        simp [Circuit.evaluated, fires, unspent]
      constructor
      · rw [counted]
        exact room.mono (Nat.le_refl _) (Nat.le_succ _)
      · simp [Circuit.evaluated, fires]
      · intro _
        rw [counted]
        exact room
      · intro _ drained
        have none := (Cycle.drained_iff.mp drained).1
        omega

end Cycle.Within

namespace Process

variable {p q : Process} {stages : List Stage}

/-- The counters are within the bounds, and as long as there may be further cycles the bounds leave room
for their runs. -/
inductive Bounded (gate : Run.Gate) : Process → Prop where
  | unstarted {c : Circuit} (held : c.gate = gate) : Bounded gate ⟨c, .unstarted⟩
  | opening {c : Circuit} {contentHash : String} {options : Options} (held : c.gate = gate)
      (room : gate.Covers (c.counters.executed + 1) (c.counters.completed + 1)) :
      Bounded gate ⟨c, .opening contentHash options⟩
  | between {c : Circuit} {pause? : Option Time.Span} (held : c.gate = gate)
      (positive : gate.Covers 1 1) (covered : gate.Covers c.counters.executed c.counters.completed)
      (room : c.stopped = false →
        gate.Covers (c.counters.executed + 1) (c.counters.completed + 1)) :
      Bounded gate ⟨c, .between pause?⟩
  | cycling {c : Circuit} {cycle : Cycle} (held : c.gate = gate) (positive : gate.Covers 1 1)
      (within : cycle.Within gate c) : Bounded gate ⟨c, .cycling cycle⟩
  | ended {c : Circuit} {result : Except StartError PUnit} (held : c.gate = gate)
      (covered : gate.Covers c.counters.executed c.counters.completed) :
      Bounded gate ⟨c, .ended result⟩

def Stage.constrains (s : Stage) : Bool :=
  match s.event with
  | .setConstraints _ => true
  | _ => false

theorem bounded_openSession (held : c.gate = gate)
    (room : gate.Covers (c.counters.executed + 1) (c.counters.completed + 1)) (options : Options)
    (key : String) : Bounded gate (openSession c now options key) := by
  have covered := room.mono (Nat.le_succ c.counters.executed) (Nat.le_succ c.counters.completed)
  rcases openSession_cases c now options key with ⟨-, opened⟩ | ⟨fault, refused⟩
  · rw [opened]
    exact .between held (room.mono (by omega) (by omega)) covered fun _ => room
  · rw [refused]
    exact .ended held covered

theorem Bounded.operate {progress : Progress} (bounded : Bounded gate ⟨c, progress⟩)
    (operation : Operation now c event c') (held : c'.gate = c.gate) :
    Bounded gate ⟨c', progress⟩ := by
  obtain ⟨counters, fired, -, -⟩ := operation.frame
  cases bounded with
  | unstarted same => exact .unstarted (held.trans same)
  | opening same room => exact .opening (held.trans same) (counters ▸ room)
  | between same positive covered room =>
      apply Bounded.between (held.trans same) positive (counters ▸ covered)
      intro going
      rw [counters]
      apply room
      cases raised : c.stopped with
      | false => rfl
      | true =>
          rw [operation.stopped raised] at going
          cases going
  | cycling same positive within =>
      exact .cycling (held.trans same) positive
        (within.congr counters fired operation.stopped rfl rfl)
  | ended same covered => exact .ended (held.trans same) (counters ▸ covered)

theorem Step.bounded (step : Step now p event q) (coherent : Coherent p) (bounded : Bounded gate p)
    (settled : (⟨p, now, event, q⟩ : Stage).constrains = false) : Bounded gate q := by
  cases step with
  | operate progress operation =>
      have kept : ∀ constraints, event ≠ .setConstraints constraints := by
        intro constraints set
        simp [Stage.constrains, set] at settled
      exact bounded.operate operation (operation.gate kept)
  | forgo progress options begun =>
      obtain ⟨startable, -, log, rfl⟩ := begin_over begun
      obtain rfl := coherent.unstarted_of_isOpen (isOpen_of_startFault? startable)
      cases bounded with
      | unstarted held =>
          cases coherent with
          | unstarted _ uncounted _ =>
              refine .ended held ?_
              simp only [uncounted]
              exact gate.covers_zero
  | request progress begun keyless =>
      obtain ⟨startable, -, unexhausted, rfl⟩ := begin_running begun
      obtain rfl := coherent.unstarted_of_isOpen (isOpen_of_startFault? startable)
      cases bounded with
      | unstarted held => exact .opening held (held ▸ Run.Gate.covers_of_exhausted? unexhausted)
  | @enter c _ _ _ progress begun keyed =>
      obtain ⟨startable, -, unexhausted, rfl⟩ := begin_running begun
      obtain rfl := coherent.unstarted_of_isOpen (isOpen_of_startFault? startable)
      cases bounded with
      | unstarted held =>
          exact bounded_openSession (c := { c with status := .running }) held
            (held ▸ Run.Gate.covers_of_exhausted? unexhausted) _ _
  | @issue c contentHash options identity =>
      cases bounded with
      | opening held room =>
          exact bounded_openSession (c := c.write now (.identityIssued identity)) held room _ _
  | deny contentHash options refusal =>
      cases bounded with
      | opening held room => exact .ended held (room.mono (Nat.le_succ _) (Nat.le_succ _))
  | halt pause? stopped =>
      cases bounded with
      | between held _ covered _ => exact .ended held covered
  | begin pause? going =>
      cases bounded with
      | between held positive covered room =>
          have room := room going
          refine .cycling held positive ?_
          constructor
          · exact covered
          · intro _
            exact room
          · intro pending
            exact absurd pending (Nat.lt_irrefl 0)
          · intro _ _
            exact room
  | @report c r cycle _ _ observes report =>
      cases bounded with
      | cycling held positive within =>
          obtain ⟨satisfied, log, rfl⟩ := report.frame
          have recorded : cycle.Within gate { c with satisfied, log } :=
            within.congr rfl rfl id rfl rfl
          exact .cycling held positive (recorded.evaluated rfl rfl)
  | release release =>
      cases bounded with
      | cycling held positive within =>
          obtain ⟨log, rfl⟩ := release.frame
          exact .cycling held positive (within.congr rfl rfl id rfl rfl)
  | abandon cycle stopped =>
      cases bounded with
      | cycling held positive within =>
          exact .cycling held positive (within.congr rfl rfl id rfl rfl)
  | call idle queued requested =>
      cases bounded with
      | cycling held positive within =>
          have room := within.pending (Nat.add_pos_left queued _)
          apply Bounded.cycling held positive
          constructor
          · exact within.covered
          · exact within.unfired
          · intro _
            exact room
          · intro _ drained
            simp [Cycle.drained] at drained
  | @answer c cycle contentHash flying answer =>
      cases bounded with
      | cycling held positive within =>
          cases coherent with
          | cycling _ _ sound =>
              obtain ⟨spent, unqueued⟩ := sound.alone flying
              have room := within.pending (by simp [Cycle.flying, flying])
              -- The run was the only one of the cycle, so only a completion can use up room.
              cases answer with
              | ok response =>
                  obtain ⟨log, finished⟩ := finishRun_ok c now contentHash response
                  rw [finished]
                  refine .cycling held positive ⟨room, ?_, ?_, ?_⟩
                  · simp [spent]
                  · simp [unqueued, Cycle.flying]
                  · intro going _
                    simp only [Bool.or_eq_false_iff, Option.isSome_eq_false_iff,
                      Option.isNone_iff_eq_none] at going
                    exact held ▸ Run.Gate.covers_of_exhausted? going.2
              | error failure =>
                  rw [finishRun_error]
                  refine .cycling held positive ⟨within.covered, ?_, ?_, ?_⟩
                  · simp [Circuit.write, spent]
                  · simp [unqueued, Cycle.flying]
                  · simp
  | skip settled drained unclosed stopped =>
      cases bounded with
      | cycling held positive within =>
          exact .cycling held positive (within.congr rfl rfl id rfl rfl)
  | close settled drained unclosed going =>
      cases bounded with
      | cycling held positive within =>
          have empty := Cycle.drained_iff.mp drained
          exact .cycling held positive (within.evaluated (by simp [empty]) rfl)
  | fail closed drained failed =>
      cases bounded with
      | cycling held _ within => exact .ended held within.covered
  | end_ closed drained unfailed stopped =>
      cases bounded with
      | cycling held _ within => exact .ended held within.covered
  | pause closed drained unfailed going =>
      cases bounded with
      | cycling held positive within =>
          exact .between held positive within.covered fun _ => within.drained going drained

theorem Bounded.held (bounded : Bounded gate p) : p.circuit.gate = gate := by
  cases bounded <;> assumption

theorem Bounded.covered (bounded : Bounded gate p) (coherent : Coherent p) :
    gate.Covers p.circuit.counters.executed p.circuit.counters.completed := by
  cases bounded with
  | unstarted held =>
      cases coherent with
      | unstarted _ uncounted _ =>
          simp only [uncounted]
          exact gate.covers_zero
  | opening held room => exact room.mono (Nat.le_succ _) (Nat.le_succ _)
  | between held positive covered room => exact covered
  | cycling held positive within => exact within.covered
  | ended held covered => exact covered

theorem Bounded.not_cycling (bounded : Bounded gate p)
    (zero : gate.maxExecutions? = some 0 ∨ gate.maxCompletions? = some 0) : ¬p.Cycling := by
  rintro ⟨cycle, cycling⟩
  cases bounded with
  | cycling held positive within =>
      rcases zero with zero | zero
      · exact absurd (positive.executed 0 zero) (Nat.not_succ_le_zero 0)
      · exact absurd (positive.completed 0 zero) (Nat.not_succ_le_zero 0)
  | _ => cases cycling

theorem Step.cycling_of_calls (step : Step now p event q)
    (calls : (⟨p, now, event, q⟩ : Stage).calls = true) : p.Cycling := by
  cases step with
  | call idle queued requested => exact ⟨_, rfl⟩
  | operate progress operation => cases operation <;> simp [Stage.calls] at calls
  | report observes report => cases report <;> simp [Stage.calls] at calls
  | release release => cases release <;> simp [Stage.calls] at calls
  | _ => simp [Stage.calls] at calls

theorem Course.bounded {o : Process} (run : Course o stages p) (coherent : Coherent o)
    (bounded : Bounded gate o) (settled : ∀ s ∈ stages, s.constrains = false) :
    (Coherent p ∧ Bounded gate p) ∧
      ∀ s ∈ stages, Bounded gate s.before ∧ Bounded gate s.after := by
  induction run with
  | refl => exact ⟨⟨coherent, bounded⟩, by simp⟩
  | @step stages _ _ _ _ _ taken ih =>
      have earlier : ∀ s ∈ stages, s.constrains = false := by
        intro s member
        exact settled s (List.mem_append_left _ member)
      obtain ⟨⟨coherent, bounded⟩, passed⟩ := ih earlier
      have taken := step_of_step? taken
      have after := taken.bounded coherent bounded
        (settled _ (List.mem_append_right _ (List.mem_singleton_self _)))
      refine ⟨⟨taken.coherent coherent, after⟩, ?_⟩
      intro s member
      rcases List.mem_append.mp member with earlier | newest
      · exact passed s earlier
      · rw [List.mem_singleton.mp newest]
        exact ⟨bounded, after⟩

/-- The counters never exceed the bounds that were set before the start, whatever happens afterwards but
for a replacement of the constraints. Under a bound of zero nothing is observed and nothing runs. -/
theorem counters_within_bounds {o : Process} {setup : List Stage} (configured : Course .new setup o)
    (unstarted : o.progress = .unstarted) (run : Course o stages p)
    (settled : ∀ s ∈ stages, s.constrains = false) :
    p.circuit.gate = o.circuit.gate ∧
    (∀ most, o.circuit.gate.maxExecutions? = some most → p.circuit.counters.executed ≤ most) ∧
    (∀ most, o.circuit.gate.maxCompletions? = some most → p.circuit.counters.completed ≤ most) ∧
    (o.circuit.gate.maxExecutions? = some 0 ∨ o.circuit.gate.maxCompletions? = some 0 →
      ∀ s ∈ stages, s.calls = false ∧ ¬s.before.Cycling ∧ ¬s.after.Cycling) := by
  obtain ⟨circuit, progress⟩ := o
  cases unstarted
  obtain ⟨⟨coherent, bounded⟩, passed⟩ := run.bounded configured.coherent.1 (.unstarted rfl) settled
  have covered := bounded.covered coherent
  refine ⟨bounded.held, covered.executed, covered.completed, ?_⟩
  intro zero s member
  obtain ⟨before, after⟩ := passed s member
  refine ⟨?_, before.not_cycling zero, after.not_cycling zero⟩
  cases calls : s.calls with
  | false => rfl
  | true => exact absurd ((run.taken member).cycling_of_calls calls) (before.not_cycling zero)

def sampleBounded : Process := ⟨Circuit.new.setConstraints ⟨some 1, some 1, none, none⟩, .unstarted⟩

def sampleBounds : List Event :=
  sampleStart ++
    [.next, .matched 0, .call, .answered (.ok .null), .matched 0, .abandon, .close, .leave]

theorem sampleBounds_within :
    ∃ setup stages p, Course .new setup sampleBounded ∧ Course sampleBounded stages p ∧
      1 < stages.countP Stage.fires ∧ p.circuit.counters.executed = 1 ∧
      p.circuit.counters.completed ≤ 1 := by
  have followed : (sampleBounded.follow (sampleBounds.map fun event => (⟨0, 0⟩, event))).any
      fun run => run.1.all (fun s => s.constrains = false) && 1 < run.1.countP Stage.fires &&
        0 < run.2.circuit.counters.executed := by decide +kernel
  simp only [Option.any_eq_true, Bool.and_eq_true, decide_eq_true_eq, List.all_eq_true] at followed
  obtain ⟨⟨stages, p⟩, followed, ⟨settled, again⟩, ran⟩ := followed
  have configured : Course .new
      [⟨.new, ⟨0, 0⟩, .setConstraints ⟨some 1, some 1, none, none⟩, sampleBounded⟩] sampleBounded :=
    .step .refl rfl
  have run := course_of_follow followed
  obtain ⟨-, executions, completions, -⟩ := counters_within_bounds configured rfl run settled
  exact ⟨_, stages, p, configured, run, again, Nat.le_antisymm (executions 1 rfl) ran,
    completions 1 rfl⟩

end Process
end Circuit
end Tripwire
