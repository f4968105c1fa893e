import Tripwire.Proofs.Circuit.Operations

/-!
# The steps of a process

`Step` says what each possible event does, one rule for each kind of event, and `step?_eq_some_iff`
that these are the steps which `Process.step?` takes. Reports of a condition share a rule, and so do
the ways in which an observation ends.
-/
namespace Tripwire.Circuit

variable {c c' r : Circuit} {now : Time.Instant} {event : Event}

inductive Report (now : Time.Instant) (c : Circuit) (index : Nat) : Event → Circuit → Prop where
  | matched : Report now c index (.matched index) (c.recordMatch now (Condition.idOf index))
  | unmatched : Report now c index (.unmatched index) (c.recordUnmatch now (Condition.idOf index))

inductive Release (now : Time.Instant) (c : Circuit) (cycle : Cycle) (index : Nat) :
    Event → Circuit → Prop where
  | settled (observes : cycle.observes index) : Release now c cycle index (.settled index none) c
  | failed {o : Observing} (error : String)
      (found : cycle.observing.find? (·.index = index) = some o) :
      Release now c cycle index (.settled index (some error))
        (c.write now (.observationFailed (Condition.idOf index) o.watcher.description error))
  | cutOff {limit : Time.Span} (bounded : cycle.limit? = some limit)
      (observes : cycle.observes index) :
      Release now c cycle index (.cutOff index)
        (c.write now (.timedOut (Condition.idOf index) limit.toMillis))

theorem Report.frame {index : Nat} (report : Report now c index event r) :
    ∃ satisfied log, r = { c with satisfied := satisfied, log := log } := by
  cases report <;> exact ⟨_, _, rfl⟩

theorem Release.frame {cycle : Cycle} {index : Nat} (release : Release now c cycle index event r) :
    ∃ log, r = { c with log := log } := by
  cases release <;> exact ⟨_, rfl⟩

namespace Process

def observations (c : Circuit) : List Observing :=
  c.watchers.zipIdx.map fun (watcher, index) => ⟨index, watcher⟩

def freshCycle (c : Circuit) : Cycle := ⟨c.interval?, observations c, 0, none, false⟩

inductive Step (now : Time.Instant) : Process → Event → Process → Prop where
  | operate {c c' : Circuit} {event : Event} (progress : Progress)
      (operation : Operation now c event c') : Step now ⟨c, progress⟩ event ⟨c', progress⟩
  | forgo {c c' : Circuit} (progress : Progress) (options : Options)
      (begun : c.begin now = (c', .over)) :
      Step now ⟨c, progress⟩ (.start options) ⟨c', .ended (.ok ())⟩
  | request {c c' : Circuit} {options : Options} (progress : Progress)
      (begun : c.begin now = (c', .running)) (keyless : options.publicKey? = none) :
      Step now ⟨c, progress⟩ (.start options) ⟨c', .opening c'.script.contentHash options⟩
  | enter {c c' : Circuit} {options : Options} {key : String} (progress : Progress)
      (begun : c.begin now = (c', .running)) (keyed : options.publicKey? = some key) :
      Step now ⟨c, progress⟩ (.start options) (openSession c' now options key)
  | issue {c : Circuit} (contentHash : String) (options : Options) (identity : Signer.Identity) :
      Step now ⟨c, .opening contentHash options⟩ (.issued (.ok identity))
        (openSession (c.write now (.identityIssued identity)) now options identity.publicKey)
  | deny {c : Circuit} (contentHash : String) (options : Options) (refusal : Signer.Refusal) :
      Step now ⟨c, .opening contentHash options⟩ (.issued (.error refusal))
        (finish (c.write now (.identityRefused refusal contentHash)) (.error (.identity refusal)))
  | halt {c : Circuit} (pause? : Option Time.Span) (stopped : c.stopped = true) :
      Step now ⟨c, .between pause?⟩ .next (finish c (.ok ()))
  | begin {c : Circuit} (pause? : Option Time.Span) (going : c.stopped = false) :
      Step now ⟨c, .between pause?⟩ .next ⟨{ c with fired := false }, .cycling (freshCycle c)⟩
  | report {c r : Circuit} {cycle : Cycle} {event : Event} {index : Nat}
      (observes : cycle.observes index) (report : Report now c index event r) :
      Step now ⟨c, .cycling cycle⟩ event
        ⟨r.evaluated now,
          .cycling { cycle with queued := cycle.queued + (r.fires && !c.fired).toNat }⟩
  | release {c r : Circuit} {cycle : Cycle} {event : Event} {index : Nat}
      (release : Release now c cycle index event r) :
      Step now ⟨c, .cycling cycle⟩ event ⟨r, .cycling (cycle.drop index)⟩
  | abandon {c : Circuit} (cycle : Cycle) (stopped : c.stopped = true) :
      Step now ⟨c, .cycling cycle⟩ .abandon ⟨c, .cycling { cycle with observing := [] }⟩
  | call {c : Circuit} {cycle : Cycle} {request : Request} (idle : cycle.inFlight? = none)
      (queued : 0 < cycle.queued) (requested : c.request? = some request) :
      Step now ⟨c, .cycling cycle⟩ .call
        ⟨c, .cycling { cycle with
          queued := cycle.queued - 1
          inFlight? := some request.contentHash }⟩
  | answer {c : Circuit} {cycle : Cycle} {contentHash : String}
      (flying : cycle.inFlight? = some contentHash) (answer : Except RunFailure Value) :
      Step now ⟨c, .cycling cycle⟩ (.answered answer)
        ⟨c.finishRun now contentHash answer, .cycling { cycle with inFlight? := none }⟩
  | skip {c : Circuit} {cycle : Cycle} (settled : cycle.observing = [])
      (drained : cycle.drained = true) (unclosed : cycle.closed = false)
      (stopped : c.stopped = true) :
      Step now ⟨c, .cycling cycle⟩ .close ⟨c, .cycling { cycle with closed := true }⟩
  | close {c : Circuit} {cycle : Cycle} (settled : cycle.observing = [])
      (drained : cycle.drained = true) (unclosed : cycle.closed = false)
      (going : c.stopped = false) :
      Step now ⟨c, .cycling cycle⟩ .close
        ⟨c.evaluated now,
          .cycling { cycle with closed := true, queued := (c.fires && !c.fired).toNat }⟩
  | fail {c : Circuit} {cycle : Cycle} {failure : RunFailure} (closed : cycle.closed = true)
      (drained : cycle.drained = true) (failed : c.failure? = some failure) :
      Step now ⟨c, .cycling cycle⟩ .leave
        (finish { c with failure? := none } (.error (.execution failure)))
  | end_ {c : Circuit} {cycle : Cycle} (closed : cycle.closed = true)
      (drained : cycle.drained = true) (unfailed : c.failure? = none) (stopped : c.stopped = true) :
      Step now ⟨c, .cycling cycle⟩ .leave (finish c (.ok ()))
  | pause {c : Circuit} {cycle : Cycle} (closed : cycle.closed = true)
      (drained : cycle.drained = true) (unfailed : c.failure? = none) (going : c.stopped = false) :
      Step now ⟨c, .cycling cycle⟩ .leave ⟨c, .between c.interval?⟩

theorem evaluateReport_eq (c : Circuit) (now : Time.Instant) (cycle : Cycle) :
    evaluateReport c now cycle =
      ⟨c.evaluated now,
        .cycling { cycle with queued := cycle.queued + (c.fires && !c.fired).toNat }⟩ := by
  unfold evaluateReport
  rw [claim_eq]
  cases (c.fires && !c.fired) <;> rfl

theorem closeCycle_eq (going : c.stopped = false) (cycle : Cycle) :
    closeCycle c now cycle =
      ⟨c.evaluated now,
        .cycling { cycle with closed := true, queued := (c.fires && !c.fired).toNat }⟩ := by
  unfold closeCycle
  rw [claim_eq]
  cases (c.fires && !c.fired) <;> simp [going]

theorem openSession_cases (c : Circuit) (now : Time.Instant) (options : Options) (key : String) :
    (Signer.checkPublicKey key = .ok () ∧
      openSession c now options key =
        ⟨{ c with session? := some ⟨key, options.authSig, options.params⟩ }, .between none⟩) ∨
    ∃ fault, openSession c now options key =
      finish (c.write now (.keyRefused fault)) (.error (.configuration fault)) := by
  unfold openSession
  cases check : Signer.checkPublicKey key with
  | ok _ => exact .inl ⟨rfl, rfl⟩
  | error fault => exact .inr ⟨fault, rfl⟩

theorem openSession_frame (c : Circuit) (now : Time.Instant) (options : Options) (key : String) :
    ∃ log session? status, (openSession c now options key).circuit =
      { c with log := log, session? := session?, status := status } := by
  rcases openSession_cases c now options key with ⟨-, opened⟩ | ⟨fault, refused⟩
  · exact ⟨_, _, _, by rw [opened]⟩
  · exact ⟨_, _, _, by rw [refused]; rfl⟩

theorem Step.frame {p q : Process} (step : Step now p event q) :
    Operation now p.circuit event q.circuit ∨
      q.circuit.gate = p.circuit.gate ∧ (p.circuit.stopped = true → q.circuit.stopped = true) := by
  cases step with
  | operate progress operation => exact .inl operation
  | forgo progress options begun =>
      obtain ⟨-, -, log, rfl⟩ := begin_over begun
      exact .inr ⟨rfl, id⟩
  | request progress begun keyless =>
      obtain ⟨-, -, -, rfl⟩ := begin_running begun
      exact .inr ⟨rfl, id⟩
  | @enter c _ options key progress begun keyed =>
      obtain ⟨-, -, -, rfl⟩ := begin_running begun
      obtain ⟨log, session?, status, same⟩ :=
        openSession_frame { c with status := .running } now options key
      rw [same]
      exact .inr ⟨rfl, id⟩
  | @issue c contentHash options identity =>
      obtain ⟨log, session?, status, same⟩ :=
        openSession_frame (c.write now (.identityIssued identity)) now options identity.publicKey
      rw [same]
      exact .inr ⟨rfl, id⟩
  | report observes report =>
      obtain ⟨satisfied, log, rfl⟩ := report.frame
      exact .inr ⟨rfl, id⟩
  | release release =>
      obtain ⟨log, rfl⟩ := release.frame
      exact .inr ⟨rfl, id⟩
  | @answer c cycle contentHash flying answer =>
      cases answer with
      | ok response =>
          obtain ⟨log, finished⟩ := finishRun_ok c now contentHash response
          rw [finished]
          exact .inr ⟨rfl, fun stopped => Bool.or_eq_true_iff.mpr (.inl stopped)⟩
      | error failure => exact .inr ⟨rfl, fun _ => rfl⟩
  | _ => exact .inr ⟨rfl, id⟩

theorem step_start {p : Process} (options : Options) :
    Step now p (.start options) (p.start now options) := by
  obtain ⟨c, progress⟩ := p
  unfold start
  split
  · rename_i c' fault begun
    obtain ⟨faulty, rfl⟩ := begin_refused begun
    exact .operate progress (.refuse options faulty)
  · rename_i c' begun
    exact .forgo progress options begun
  · rename_i c' begun
    split
    · rename_i key keyed
      exact .enter progress begun keyed
    · rename_i keyless
      exact .request progress begun keyless

theorem step_beginCycle (c : Circuit) (now : Time.Instant) (pause? : Option Time.Span) :
    Step now ⟨c, .between pause?⟩ .next (beginCycle c) := by
  unfold beginCycle
  split
  · rename_i stopped
    exact .halt pause? stopped
  · rename_i going
    exact .begin pause? (by simpa using going)

theorem step_closeCycle {cycle : Cycle} (settled : cycle.observing = [])
    (drained : cycle.drained = true) (unclosed : cycle.closed = false) :
    Step now ⟨c, .cycling cycle⟩ .close (closeCycle c now cycle) := by
  cases stopped : c.stopped with
  | false =>
      rw [closeCycle_eq stopped]
      exact .close settled drained unclosed stopped
  | true =>
      simp only [closeCycle, stopped]
      exact .skip settled drained unclosed stopped

theorem step_leaveCycle {cycle : Cycle} (closed : cycle.closed = true)
    (drained : cycle.drained = true) : Step now ⟨c, .cycling cycle⟩ .leave (leaveCycle c) := by
  unfold leaveCycle
  split
  · rename_i failure failed
    exact .fail closed drained failed
  · rename_i unfailed
    split
    · rename_i stopped
      exact .end_ closed drained unfailed stopped
    · rename_i going
      exact .pause closed drained unfailed (by simpa using going)

theorem step_of_cycleStep? {cycle : Cycle} {q : Process}
    (taken : cycleStep? c cycle now event = some q) : Step now ⟨c, .cycling cycle⟩ event q := by
  cases event with
  | matched index =>
      simp only [cycleStep?, Option.ite_none_right_eq_some, Option.some.injEq] at taken
      obtain ⟨observes, rfl⟩ := taken
      rw [evaluateReport_eq]
      exact .report observes .matched
  | unmatched index =>
      simp only [cycleStep?, Option.ite_none_right_eq_some, Option.some.injEq] at taken
      obtain ⟨observes, rfl⟩ := taken
      rw [evaluateReport_eq]
      exact .report observes .unmatched
  | settled index error? =>
      simp only [cycleStep?] at taken
      split at taken
      · cases taken
      · rename_i o found
        cases error? with
        | none =>
            cases taken
            have same := List.find?_some found
            exact .release (.settled (List.any_eq_true.mpr ⟨o, List.mem_of_find?_eq_some found, same⟩))
        | some error =>
            cases taken
            exact .release (.failed error found)
  | cutOff index =>
      simp only [cycleStep?] at taken
      split at taken
      · cases taken
      · rename_i limit bounded
        simp only [Option.ite_none_right_eq_some, Option.some.injEq] at taken
        obtain ⟨observes, rfl⟩ := taken
        exact .release (.cutOff bounded observes)
  | abandon =>
      simp only [cycleStep?, Option.ite_none_right_eq_some, Option.some.injEq] at taken
      obtain ⟨stopped, rfl⟩ := taken
      exact .abandon cycle stopped
  | call =>
      simp only [cycleStep?] at taken
      split at taken
      · rename_i request idle requested
        simp only [Option.ite_none_right_eq_some, Option.some.injEq] at taken
        obtain ⟨queued, rfl⟩ := taken
        exact .call idle queued requested
      · cases taken
  | answered answer =>
      simp only [cycleStep?, Option.map_eq_some_iff] at taken
      obtain ⟨contentHash, flying, rfl⟩ := taken
      exact .answer flying answer
  | close =>
      simp only [cycleStep?, Option.ite_none_right_eq_some, Option.some.injEq, Bool.and_eq_true,
        List.isEmpty_iff, Bool.not_eq_true'] at taken
      obtain ⟨⟨⟨settled, drained⟩, unclosed⟩, rfl⟩ := taken
      exact step_closeCycle settled drained unclosed
  | leave =>
      simp only [cycleStep?, Option.ite_none_right_eq_some, Option.some.injEq,
        Bool.and_eq_true] at taken
      obtain ⟨⟨closed, drained⟩, rfl⟩ := taken
      exact step_leaveCycle closed drained
  | _ => cases taken

theorem step_of_step? {p q : Process} (taken : p.step? now event = some q) :
    Step now p event q := by
  obtain ⟨c, progress⟩ := p
  cases event with
  | setConditions watchers => cases taken; exact .operate progress (.setConditions watchers)
  | setLogic logic => cases taken; exact .operate progress (.setLogic logic)
  | setConstraints constraints =>
      cases taken; exact .operate progress (.setConstraints constraints)
  | setActions actions => cases taken; exact .operate progress (.setActions actions)
  | stop => cases taken; exact .operate progress .stop
  | start options => cases taken; exact step_start options
  | issued answer =>
      cases progress with
      | opening contentHash options =>
          cases answer with
          | ok identity => cases taken; exact .issue contentHash options identity
          | error refusal => cases taken; exact .deny contentHash options refusal
      | _ => cases taken
  | next =>
      cases progress with
      | between pause? => cases taken; exact step_beginCycle c now pause?
      | _ => cases taken
  | _ =>
      cases progress with
      | cycling cycle => exact step_of_cycleStep? taken
      | _ => cases taken

theorem step?_of_step {p q : Process} (step : Step now p event q) :
    p.step? now event = some q := by
  cases step with
  | operate progress operation =>
      cases operation with
      | refuse options faulty => simp [step?, start, Circuit.begin, faulty]
      | _ => rfl
  | forgo progress options begun => simp [step?, start, begun]
  | request progress begun keyless => simp [step?, start, begun, keyless]
  | enter progress begun keyed => simp [step?, start, begun, keyed]
  | issue contentHash options identity => rfl
  | deny contentHash options refusal => rfl
  | halt pause? stopped => simp [step?, beginCycle, stopped]
  | begin pause? going => simp [step?, beginCycle, going, freshCycle, observations, Circuit.interval?]
  | report observes report =>
      cases report <;> simp [step?, cycleStep?, observes, evaluateReport_eq] <;> rfl
  | release release =>
      cases release with
      | settled observes =>
          have found := List.find?_isSome.mpr (List.any_eq_true.mp observes)
          obtain ⟨o, found⟩ := Option.isSome_iff_exists.mp found
          simp [step?, cycleStep?, found]
      | failed error found => simp [step?, cycleStep?, found]
      | cutOff bounded observes => simp [step?, cycleStep?, bounded, observes]
  | abandon cycle stopped => simp [step?, cycleStep?, stopped]
  | call idle queued requested => simp [step?, cycleStep?, idle, queued, requested]
  | answer flying answer => simp [step?, cycleStep?, flying]
  | skip settled drained unclosed stopped =>
      simp [step?, cycleStep?, settled, drained, unclosed, closeCycle, stopped]
  | close settled drained unclosed going =>
      simp [step?, cycleStep?, settled, drained, unclosed, closeCycle_eq going]
  | fail closed drained failed => simp [step?, cycleStep?, closed, drained, leaveCycle, failed]
  | end_ closed drained unfailed stopped =>
      simp [step?, cycleStep?, closed, drained, leaveCycle, unfailed, stopped]
  | pause closed drained unfailed going =>
      simp [step?, cycleStep?, closed, drained, leaveCycle, unfailed, going]

theorem step?_eq_some_iff {p q : Process} : p.step? now event = some q ↔ Step now p event q :=
  ⟨step_of_step?, step?_of_step⟩

end Process
end Tripwire.Circuit
