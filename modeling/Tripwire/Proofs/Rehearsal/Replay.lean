import Tripwire.Proofs.Circuit.Requests
import Tripwire.Proofs.Rehearsal.Fates

/-!
# Patterns are replayed

A watcher with a pattern tells one entry of it after the other and begins again at its end, whatever else a
rehearsal does. An observation that is given up while it waits tells nothing, and the next one reports what it
would have reported.
-/
namespace Tripwire.Rehearsal

open Circuit (Told)
open Circuit.Process (Course Stage told told_append told_singleton)

namespace Bench

variable {b b' : Bench} {o : Open} {event : Circuit.Event} {p : Pattern} {q : Circuit.Process}

/-! ## Replaying benches -/

/-- One bench has become another, and meanwhile each watcher with a pattern has gone through observations that tell
just what the circuit was told of it. -/
structure Replays (b b' : Bench) : Prop where
  tended : Tended b'
  grown : b.watchers.size ≤ b'.watchers.size
  silent : ∀ key < b.watchers.size, b.pattern? key = none → b'.pattern? key = none
  course : ∃ stages, Course b.process stages b'.process ∧ ∀ key p, b.pattern? key = some p →
    ∃ fates q, p.Passes fates q ∧ b'.pattern? key = some q ∧ told key stages = fates.flatMap (·.told p.name)

theorem lt_of_pattern? {key : Nat} (found : b.pattern? key = some p) : key < b.watchers.size := by
  by_contra beyond
  rw [pattern?, Array.getElem?_eq_none (by omega)] at found
  cases found

namespace Replays

theorem trans {c : Bench} (left : Replays b b') (right : Replays b' c) : Replays b c := by
  obtain ⟨stages, earlier, before⟩ := left.course
  obtain ⟨stages', later, after⟩ := right.course
  constructor
  case tended => exact right.tended
  case grown => exact Nat.le_trans left.grown right.grown
  case silent =>
    intro key within none
    exact right.silent key (Nat.lt_of_lt_of_le within left.grown) (left.silent key within none)
  case course =>
    refine ⟨stages ++ stages', earlier.trans later, ?_⟩
    intro key p found
    obtain ⟨fates, q, passes, between, told⟩ := before key p found
    obtain ⟨fates', r, passes', found', told'⟩ := after key q between
    refine ⟨fates ++ fates', r, passes.trans passes', found', ?_⟩
    rw [told_append, told, told', passes.same.1, List.flatMap_append]

theorem quiet (tended : Tended b') (grown : b.watchers.size ≤ b'.watchers.size)
    (same : ∀ key < b.watchers.size, b'.pattern? key = b.pattern? key) {stages : List Stage}
    (course : Course b.process stages b'.process)
    (hushed : ∀ key p, b.pattern? key = some p → told key stages = []) : Replays b b' := by
  constructor
  case tended => exact tended
  case grown => exact grown
  case silent => exact fun key within none => (same key within).trans none
  case course =>
    refine ⟨stages, course, ?_⟩
    intro key p found
    exact ⟨[], p, .nil, (same key (lt_of_pattern? found)).trans found, hushed key p found⟩

theorem step (tended : Tended b') (watchers : b'.watchers = b.watchers)
    (taken : b.process.step? now event = some b'.process)
    (hushed : ∀ q key p, b.pattern? key = some p → (⟨b.process, now, event, q⟩ : Stage).told key = []) :
    Replays b b' := by
  have grown := Nat.le_of_eq (congrArg Array.size watchers).symm
  have same := pattern?_congr watchers
  refine quiet tended grown (fun key _ => same key) (.single taken) ?_
  intro key p found
  rw [told_singleton]
  exact hushed _ key p found

theorem still (tended : Tended b) (process : b'.process = b.process) (watchers : b'.watchers = b.watchers)
    (opened : b'.opened = b.opened) (deadline : b'.deadline? = b.deadline?) : Replays b b' := by
  have grown := Nat.le_of_eq (congrArg Array.size watchers).symm
  have same := pattern?_congr watchers
  have course : Course b.process [] b'.process := by
    rw [process]
    exact .refl
  exact quiet (tended.still process watchers opened deadline) grown (fun key _ => same key) course
    fun _ _ _ => rfl

theorem refl (tended : Tended b) : Replays b b := still tended rfl rfl rfl rfl

theorem happen (tended : Tended b) (within : event ≠ .next)
    (unregistered : ∀ watchers, event ≠ .setConditions watchers)
    (kept : b.process.remaining event = b.process.observing)
    (hushed : ∀ q key p, b.pattern? key = some p → (⟨b.process, now, event, q⟩ : Stage).told key = []) :
    Replays b (b.happen event) := by
  have tended' := tended.happen within unregistered kept
  cases taken : b.process.step? now event with
  | none => exact still tended (by simp [Bench.happen, taken]) rfl rfl rfl
  | some q =>
      rw [happen_of_taken taken] at tended' ⊢
      exact step tended' rfl taken hushed

end Replays

theorem Tended.hushed_of_untold (tended : Tended b) (untold : ∀ index, event.told? index = none)
    (q : Circuit.Process) (key : Nat) : (⟨b.process, now, event, q⟩ : Stage).told key = [] := by
  rw [tended.told_eq, List.filterMap_eq_nil_iff]
  intro o _
  rw [untold, ite_self]

theorem Tended.hushed_of_patternless (tended : Tended b) (opened : o ∈ b.opened)
    (patternless : b.pattern? o.key = none) {call : Told}
    (tells : ∀ index, event.told? index = if index = o.index then some call else none)
    (q : Circuit.Process) (key : Nat) (p : Pattern) (found : b.pattern? key = some p) :
    (⟨b.process, now, event, q⟩ : Stage).told key = [] := by
  rw [tended.told_of_open opened tells, if_neg]
  rintro rfl
  cases patternless.symm.trans found

/-! ## Moves -/

theorem replays_untold (tended : Tended b) (untold : ∀ index, event.told? index = none)
    (within : event ≠ .next) (unregistered : ∀ watchers, event ≠ .setConditions watchers)
    (kept : b.process.remaining event = b.process.observing) : Replays b (b.happen event) :=
  .happen tended within unregistered kept fun q key _ _ => tended.hushed_of_untold untold q key

theorem replays_register (tended : Tended b) (plans : List WatcherPlan) : Replays b (b.register plans) := by
  have taken : b.process.step? now (.setConditions (b.newcomers plans)) = some (b.register plans).process :=
    rfl
  have grown : b.watchers.size ≤ (b.watchers ++ (plans.map WatcherState.ofPlan).toArray).size := by
    simp
  refine .quiet (tended.register plans) grown (fun key => pattern?_append) (.single taken) ?_
  intro key p _
  rw [told_singleton]
  exact tended.hushed_of_untold (fun _ => rfl) _ key

theorem replays_act (tended : Tended b) (a : Act) : Replays b (b.act a).1 := by
  cases a with
  | misread misreading => exact .refl tended
  | setConditions plans => exact replays_register tended plans
  | setLogic logic => exact replays_untold tended (fun _ => rfl) nofun nofun rfl
  | setConstraints constraints => exact replays_untold tended (fun _ => rfl) nofun nofun rfl
  | setActions actions =>
      show Replays b (b.happen (.setActions actions))
      exact replays_untold tended (fun _ => rfl) nofun nofun rfl
  | stop => exact replays_untold tended (fun _ => rfl) nofun nofun rfl
  | state => exact .refl tended
  | logs category? => exact .refl tended
  | script render => exact .refl tended

theorem replays_aside (tended : Tended b) (aside : Aside b event) : Replays b (b.happen event) := by
  cases aside with
  | leave unopened =>
      have seats := tended.seats
      rw [unopened] at seats
      have kept : b.process.remaining .leave = b.process.observing := (List.map_eq_nil_iff.mp seats).symm
      exact replays_untold tended (fun _ => rfl) nofun nofun kept
  | _ => exact replays_untold tended (fun _ => rfl) nofun nofun rfl

theorem replays_beginCycle (tended : Tended b) {pause? : Option Time.Span}
    (between : b.process.progress = .between pause?) : Replays b b.beginCycle := by
  obtain ⟨process, watchers⟩ := process_beginCycle between
  have taken := process ▸ step?_next between
  exact .step (tended.beginCycle between) watchers taken fun q key _ _ =>
    tended.hushed_of_untold (fun _ => rfl) q key

theorem Awaits.slow (awaits : b.Awaits o) (waits : o.waiting.wake? ≠ none)
    (found : b.pattern? o.key = some p) : p.latencyMillis ≠ 0 := by
  have latency : b.latency? o.key = some p.latencyMillis := congrArg _ found
  unfold Awaits at awaits
  split at awaits
  · rename_i fresh
    exact absurd (congrArg _ fresh) waits
  · intro quick
    exact awaits (quick ▸ latency)
  · cases awaits.symm.trans latency

theorem replays_abandon (tended : Tended b) {cycle : Circuit.Cycle}
    (cycling : b.process.progress = .cycling cycle) (stopped : b.circuit.stopped = true)
    (waiting : ∀ o ∈ b.opened, b.isReady o = false) :
    Replays b { b.happen .abandon with opened := [] } := by
  have taken : b.process.step? now .abandon =
      some ⟨b.circuit, .cycling { cycle with observing := [] }⟩ := by
    unfold Circuit.Process.step?
    rw [cycling]
    exact if_pos stopped
  rw [happen_of_taken taken]
  constructor
  case tended => exact tended.step taken nofun nofun (List.nil_sublist _) rfl
  case grown => exact Nat.le_refl _
  case silent => exact fun _ _ none => none
  case course =>
    refine ⟨_, .single taken, ?_⟩
    intro key p found
    rw [told_singleton, tended.told_eq]
    -- What is ready is not abandoned, so the observation has begun, and what it waits for is its latency.
    by_cases observed : ∃ o ∈ b.opened, o.key = key
    · obtain ⟨o, opened, rfl⟩ := observed
      have waits : o.waiting.wake? ≠ none := by
        intro fresh
        have ready := waiting o opened
        simp [isReady, isDue, fresh] at ready
      have slow := (tended.waits o opened).slow waits found
      refine ⟨[.abandoned], p, .cancel .nil slow rfl, found, ?_⟩
      rw [filterMap_of_only Open.key opened tended.keys fun other _ apart => if_neg apart, if_pos rfl]
      rfl
    · refine ⟨[], p, .nil, found, ?_⟩
      rw [List.flatMap_nil, List.filterMap_eq_nil_iff]
      intro o opened
      exact if_neg fun same => observed ⟨o, opened, same⟩

/-! ## Ends of observations -/

theorem Ends.replays {calls : List Told} (ends : Ends b o calls b') (began : Bench)
    (process : b.process = began.process) (grown : began.watchers.size ≤ b.watchers.size)
    (apart : ∀ key, o.key ≠ key → b.pattern? key = began.pattern? key)
    (silent : began.pattern? o.key = none → b.pattern? o.key = none)
    (replayed : ∀ p, began.pattern? o.key = some p → ∃ fate q, p.Passes [fate] q ∧
      b.pattern? o.key = some q ∧ calls = fate.told p.name) :
    Replays began { b' with opened := b.others o } := by
  have same (key : Nat) : ({ b' with opened := b.others o } : Bench).pattern? key = b.pattern? key :=
    pattern?_congr ends.watchers key
  constructor
  case tended => exact ends.tended
  case grown => exact Nat.le_trans grown (Nat.le_of_eq (congrArg Array.size ends.watchers).symm)
  case silent =>
    intro key _ none
    rw [same]
    by_cases own : o.key = key
    · exact own ▸ silent (own ▸ none)
    · exact (apart key own).trans none
  case course =>
    obtain ⟨stages, course, told⟩ := ends.course
    refine ⟨stages, process ▸ course, ?_⟩
    intro key p found
    rw [told, same]
    by_cases own : o.key = key
    · subst own
      obtain ⟨fate, q, passes, left, rfl⟩ := replayed p found
      exact ⟨[fate], q, passes, left, by simp⟩
    · exact ⟨[], p, .nil, (apart key own).trans found, if_neg own⟩

theorem replays_report (tended : Tended b) (opened : o ∈ b.opened) (found : b.pattern? o.key = some p) :
    Replays b { b.report o.index o.key p with opened := b.others o } := by
  have noted := pattern?_advanced tended opened p
  apply (ends_report (tended_advanced tended opened found) opened).replays b rfl (size_noting b _ _)
  · exact fun key own => (noted key).trans (if_neg own)
  · intro none
    cases none.symm.trans found
  · intro p' found'
    obtain rfl := Option.some.inj (found'.symm.trans found)
    exact ⟨.reported p'.current, p'.advance, .report .nil, (noted o.key).trans (if_pos rfl), rfl⟩

theorem replays_noting (tended : Tended b) (opened : o ∈ b.opened) {state : WatcherState}
    (kept : state.pattern? = b.pattern? o.key) : Replays b (b.noting o.key state) := by
  have same (key : Nat) : (b.noting o.key state).pattern? key = b.pattern? key := by
    rw [pattern?_noting (tended.known o opened)]
    split
    · rename_i own
      rw [kept, own]
    · rfl
  have tended' := tended.watch (size_noting b _ _) fun key _ => congrArg _ (same key)
  exact .quiet tended' (size_noting b _ _) (fun key _ => same key) .refl fun _ _ _ => rfl

theorem replays_settled (tended : Tended b) (opened : o ∈ b.opened) (patternless : b.pattern? o.key = none)
    (error? : Option String) :
    Replays b { b.happen (.settled o.index error?) with opened := b.others o } := by
  apply (ends_settled tended opened error?).replays b rfl (Nat.le_refl _) (fun _ _ => rfl) id
  intro p found
  cases patternless.symm.trans found

theorem replays_cutOff (tended : Tended b) (opened : o ∈ b.opened) (past : b.pastDeadline = true)
    (slow : ∀ p, b.pattern? o.key = some p → p.latencyMillis ≠ 0) :
    Replays b { b.happen (.cutOff o.index) with opened := b.others o } := by
  apply (ends_cutOff tended opened past).replays b rfl (Nat.le_refl _) (fun _ _ => rfl) id
  intro p found
  exact ⟨.cutOff, p, .cancel .nil (slow p found) rfl, found, rfl⟩

/-! ## Polls -/

inductive Resumed (b : Bench) (o : Open) : Bench × Option Waiting → Prop where
  | ended {b' : Bench} (replays : Replays b { b' with opened := b.others o }) : Resumed b o (b', none)
  | waits {b' : Bench} {waiting : Waiting} (replays : Replays b b') (opened : b'.opened = b.opened)
      (awaits : b'.Awaits { o with waiting := waiting }) (waits : waiting.wake? ≠ none) :
      Resumed b o (b', some waiting)

theorem Resumed.after {went : Bench × Option Waiting} (replays : Replays b b') (same : b'.opened = b.opened)
    (resumed : Resumed b' o went) : Resumed b o went := by
  cases resumed with
  | ended replays' =>
      rw [others, same] at replays'
      exact .ended (replays.trans replays')
  | waits replays' opened awaits waits =>
      exact .waits (replays.trans replays') (opened.trans same) awaits waits

theorem latency?_eq_none_iff {key : Nat} : b.latency? key = none ↔ b.pattern? key = none := by
  rw [latency?, Option.map_eq_none_iff]

theorem act_opened (b : Bench) (a : Act) : (b.act a).1.opened = b.opened := by
  cases a <;> rfl

theorem resumed_runSteps (tended : Tended b) (opened : o ∈ b.opened) (patternless : b.pattern? o.key = none)
    (name : String) (steps : List WatchStep) : Resumed b o (runSteps o.index name b steps) := by
  -- The steps may act on the circuit, even register others, but the watcher keeps its place and the observation
  -- stays open until the last of them.
  induction steps generalizing b with
  | nil => exact .ended (replays_settled tended opened patternless none)
  | cons step rest ih =>
      have onward {b' : Bench} (replays : Replays b b') (same : b'.opened = b.opened) :
          Resumed b o (runSteps o.index name b' rest) := by
        apply Resumed.after replays same
        apply ih replays.tended (same ▸ opened)
        exact replays.silent o.key (tended.known o opened) patternless
      cases step with
      | matched =>
          have matched : Replays b (b.happen (.matched o.index)) := .happen tended nofun nofun rfl
            (tended.hushed_of_patternless opened patternless fun _ => rfl)
          exact onward matched rfl
      | unmatched =>
          have unmatched : Replays b (b.happen (.unmatched o.index)) := .happen tended nofun nofun rfl
            (tended.hushed_of_patternless opened patternless fun _ => rfl)
          exact onward unmatched rfl
      | fail error => exact .ended (replays_settled tended opened patternless (some error))
      | act a =>
          have acted := replays_act tended a
          have seen : Replays (b.act a).1 (b.actAs name a) := .still acted.tended rfl rfl rfl rfl
          exact onward (acted.trans seen) (act_opened b a)
      | sleep millis =>
          unfold runSteps
          by_cases instant : millis = 0
          · rw [if_pos instant]
            exact onward (.still tended rfl rfl rfl rfl) rfl
          · rw [if_neg instant]
            exact .waits (.refl tended) rfl (latency?_eq_none_iff.mpr patternless) nofun

theorem resumed_beginObservation (tended : Tended b) (opened : o ∈ b.opened) :
    Resumed b o (b.beginObservation o.index o.key) := by
  have pattern (state? : Option WatcherState) (present : b.watchers[o.key]? = state?) :
      b.pattern? o.key = state?.bind WatcherState.pattern? := congrArg (Option.bind · _) present
  unfold beginObservation
  split
  · rename_i absent
    exact .ended (replays_settled tended opened (pattern _ absent) none)
  · rename_i p present
    by_cases quick : p.latencyMillis = 0
    · rw [if_pos quick]
      exact .ended (replays_report tended opened (pattern _ present))
    · rw [if_neg quick]
      refine .waits (.refl tended) rfl ?_ nofun
      show (b.pattern? o.key).map _ ≠ some 0
      rw [pattern _ present]
      exact fun same => quick (Option.some.inj same)
  · rename_i name description cycles observed present
    have patternless := pattern _ present
    let counted := b.noting o.key (.steps name description cycles (observed + 1))
    have noted : Replays b counted := replays_noting tended opened patternless.symm
    have seen : Replays counted (counted.see (.observes name (observed + 1))) :=
      .still noted.tended rfl rfl rfl rfl
    have silent := (noted.trans seen).silent o.key (tended.known o opened) patternless
    exact .after (noted.trans seen) rfl (resumed_runSteps seen.tended opened silent name _)

theorem resumed_resume (tended : Tended b) (opened : o ∈ b.opened) : Resumed b o (b.resume o) := by
  unfold resume
  split
  · exact resumed_beginObservation tended opened
  · split
    · rename_i p present
      have found : b.pattern? o.key = some p := congrArg (Option.bind · WatcherState.pattern?) present
      exact .ended (replays_report tended opened found)
    · rename_i other
      have patternless : b.pattern? o.key = none := by
        unfold pattern?
        cases present : b.watchers[o.key]? with
        | none => rfl
        | some state =>
            cases state with
            | pattern p => exact absurd present (other p)
            | steps => rfl
      exact .ended (replays_settled tended opened patternless none)
  · rename_i name wake rest asleep
    have patternless := tended.waits o opened
    rw [Awaits, asleep, latency?_eq_none_iff] at patternless
    have woke : Replays b (b.see (.woke name)) := .still tended rfl rfl rfl rfl
    exact .after woke rfl (resumed_runSteps woke.tended opened patternless name rest)

theorem replays_wait (tended : Tended b) (opened : o ∈ b.opened) {waiting : Waiting}
    (awaits : b.Awaits { o with waiting := waiting }) :
    Replays b { b with opened := b.opened.map fun p =>
      if p.index = o.index then { o with waiting := waiting } else p } :=
  .quiet (tended.wait opened awaits) (Nat.le_refl _) (fun _ _ => rfl) .refl fun _ _ _ => rfl

theorem poll_of_ended
    (went : (if b.isDue o.waiting.wake? then b.resume o else (b, some o.waiting)) = (b', none)) :
    b.poll o = { b' with opened := b.others o } := by
  unfold poll
  rw [went]
  rfl

theorem poll_of_waits {waiting : Waiting}
    (went : (if b.isDue o.waiting.wake? then b.resume o else (b, some o.waiting)) = (b', some waiting)) :
    b.poll o =
      if b'.pastDeadline then { b'.happen (.cutOff o.index) with opened := b.others o }
      else { b' with opened := b'.opened.map fun p =>
        if p.index = o.index then { o with waiting := waiting } else p } := by
  unfold poll
  rw [went]
  rfl

theorem replays_poll (tended : Tended b) (opened : o ∈ b.opened) : Replays b (b.poll o) := by
  have resumed : Resumed b o (if b.isDue o.waiting.wake? then b.resume o else (b, some o.waiting)) := by
    by_cases due : b.isDue o.waiting.wake?
    · rw [if_pos due]
      exact resumed_resume tended opened
    · rw [if_neg due]
      refine .waits (.refl tended) rfl (tended.waits o opened) ?_
      intro fresh
      simp [isDue, fresh] at due
  generalize went : (if b.isDue o.waiting.wake? then b.resume o else (b, some o.waiting)) = result at resumed
  cases resumed with
  | ended replays =>
      rw [poll_of_ended went]
      exact replays
  | @waits b' waiting replays same awaits waits =>
      have opened' : o ∈ b'.opened := same ▸ opened
      rw [poll_of_waits went]
      apply replays.trans
      by_cases past : b'.pastDeadline
      · rw [if_pos past, others, ← same]
        exact replays_cutOff replays.tended opened' past fun p found => awaits.slow waits found
      · rw [if_neg past]
        exact replays_wait replays.tended opened' awaits

theorem Move.replays (tended : Tended b) (move : Move b b') : Replays b b' := by
  cases move with
  | still process watchers opened deadline => exact .still tended process watchers opened deadline
  | act a => exact replays_act tended a
  | happen aside => exact replays_aside tended aside
  | beginCycle between => exact replays_beginCycle tended between
  | poll opened ready => exact replays_poll tended opened
  | abandon cycling stopped waiting => exact replays_abandon tended cycling stopped waiting

theorem Moves.replays (tended : Tended b) (moves : Moves b b') : Replays b b' := by
  induction moves with
  | refl => exact .refl tended
  | tail _ move ih => exact ih.trans (move.replays ih.tended)

/-! ## The latency -/

def pastLatency (b : Bench) (p : Pattern) (o : Open) : Bool :=
  match o.waiting with
  | .fresh => p.latencyMillis = 0
  | .latency wake => wake ≤ b.clock
  | .asleep .. => false

theorem pattern?_eq_some_iff {key : Nat} :
    b.pattern? key = some p ↔ b.watchers[key]? = some (.pattern p) := by
  rw [pattern?, Option.bind_eq_some_iff]
  constructor
  · rintro ⟨state, present, pattern⟩
    cases state <;> cases pattern
    exact present
  · exact fun present => ⟨_, present, rfl⟩

theorem poll_of_past (found : b.pattern? o.key = some p) (past : b.pastLatency p o = true) :
    b.poll o = { b.report o.index o.key p with opened := b.others o } := by
  have present := pattern?_eq_some_iff.mp found
  unfold pastLatency at past
  apply poll_of_ended
  split at past
  · rename_i fresh
    have due : b.isDue Waiting.fresh.wake? = true := rfl
    rw [fresh, if_pos due, resume, fresh]
    simp only [beginObservation, present]
    exact if_pos (of_decide_eq_true past)
  · rename_i wake latency
    have due : b.isDue (Waiting.latency wake).wake? = true := past
    rw [latency, if_pos due, resume, latency]
    simp only [present]
  · cases past

theorem poll_of_waiting (tended : Tended b) (opened : o ∈ b.opened) (found : b.pattern? o.key = some p)
    (waits : b.pastLatency p o = false) : ∃ waiting, b.poll o =
      if b.pastDeadline then { b.happen (.cutOff o.index) with opened := b.others o }
      else { b with opened := b.opened.map fun p =>
        if p.index = o.index then { o with waiting := waiting } else p } := by
  have present := pattern?_eq_some_iff.mp found
  have awaits := tended.waits o opened
  unfold pastLatency at waits
  unfold Awaits at awaits
  split at waits
  · rename_i fresh
    refine ⟨.latency (b.wakeAfter p.latencyMillis), poll_of_waits ?_⟩
    have due : b.isDue Waiting.fresh.wake? = true := rfl
    rw [fresh, if_pos due, resume, fresh]
    simp only [beginObservation, present]
    exact if_neg (of_decide_eq_false waits)
  · rename_i wake latency
    refine ⟨o.waiting, poll_of_waits ?_⟩
    rw [latency]
    exact if_neg (by simpa [isDue, Waiting.wake?] using waits)
  · rename_i asleep
    rw [asleep, latency?_eq_none_iff, found] at awaits
    cases awaits

theorem poll_reports (tended : Tended b) (opened : o ∈ b.opened) (found : b.pattern? o.key = some p)
    (past : b.pastLatency p o = true) : ∃ stages, Course b.process stages (b.poll o).process ∧
      told o.key stages = (Fate.reported p.current).told p.name ∧
      (b.poll o).pattern? o.key = some p.advance := by
  have reports := ends_report (tended_advanced tended opened found) opened
  obtain ⟨stages, course, told⟩ := reports.course
  rw [poll_of_past found past]
  refine ⟨stages, course, (told o.key).trans (if_pos rfl), ?_⟩
  have advanced := pattern?_advanced tended opened p o.key
  exact (pattern?_congr reports.watchers o.key).trans (advanced.trans (if_pos rfl))

theorem poll_waits (tended : Tended b) (opened : o ∈ b.opened) (found : b.pattern? o.key = some p)
    (waits : b.pastLatency p o = false) : ∃ stages, Course b.process stages (b.poll o).process ∧
      told o.key stages = (if b.pastDeadline then [.cutOff] else []) ∧
      (b.poll o).pattern? o.key = some p := by
  obtain ⟨waiting, poll⟩ := poll_of_waiting tended opened found waits
  rw [poll]
  by_cases late : b.pastDeadline
  · have cut := ends_cutOff tended opened late
    obtain ⟨stages, course, told⟩ := cut.course
    simp only [if_pos late]
    exact ⟨stages, course, (told o.key).trans (if_pos rfl), (pattern?_congr cut.watchers o.key).trans found⟩
  · simp only [if_neg late]
    exact ⟨[], .refl, rfl, found⟩

/-- With a watcher that has a pattern, whatever is done, the circuit is told of one observation after the other.
Those that report go through the pattern in its order, round and round, and an empty pattern reports nothing;
those that are given up tell only that, and use up nothing of it. Without a latency none is given up. An open
observation that is past the latency reports, even at its deadline; one that is not is given up there. -/
theorem patterns_are_replayed {executor : ExecutorPlan} {issuer : IssuerPlan} {key : Nat}
    (reached : Moves (new executor issuer) b) (found : b.pattern? key = some p) :
    (∀ steps, Moves b (b.performAll steps)) ∧
    (∀ b', Moves b b' → ∃ (stages : List Stage) (fates : List Fate) (n : Nat),
      Course b.process stages b'.process ∧
      told key stages = fates.flatMap (·.told p.name) ∧
      fates.filterMap Fate.reported? = ((List.range n).map fun k =>
        (p.observations[(p.cursor + k) % p.observations.length]?).getD .nothing) ∧
      b'.pattern? key =
        some { p with cursor := if p.observations.isEmpty then p.cursor else p.cursor + n } ∧
      (p.latencyMillis = 0 → ∀ fate ∈ fates, fate.reported?.isSome)) ∧
    ∀ o ∈ b.opened, o.key = key →
      (b.pastLatency p o = true → ∃ stages, Course b.process stages (b.poll o).process ∧
        told key stages = (Fate.reported p.current).told p.name ∧
        (b.poll o).pattern? key = some p.advance) ∧
      (b.pastLatency p o = false → ∃ stages, Course b.process stages (b.poll o).process ∧
        told key stages = (if b.pastDeadline then [.cutOff] else []) ∧
        (b.poll o).pattern? key = some p) := by
  have tended := (reached.replays (tended_new executor issuer)).tended
  refine ⟨b.moves_performAll, ?_, ?_⟩
  · intro b' moves
    obtain ⟨stages, course, told⟩ := (moves.replays tended).course
    obtain ⟨fates, q, passes, found', told⟩ := told key p found
    obtain ⟨n, rfl, reported, quick⟩ := passes.spec
    rw [Pattern.watch_eq] at reported
    rw [Pattern.iterate_advance] at found'
    exact ⟨stages, fates, n, course, told, reported, found', quick⟩
  · rintro o opened rfl
    exact ⟨poll_reports tended opened found, poll_waits tended opened found⟩

def samplePattern : Pattern := ⟨"door", [.holds, .nothing], 10, 0⟩

def samplePrepared : Bench :=
  (new (.calls [⟨0, [], .ok .null⟩]) .standard).performAll
    [.act (.setConditions [.pattern samplePattern]), .act (.setLogic ⟨.every, some ⟨5000000⟩⟩),
      .act (.setActions [.fetch ⟨1, "https://example.org", "door", "", none, [], []⟩])]

def sampleMeanwhile : Step :=
  .start ⟨some Circuit.Process.sampleKey, .null, []⟩
    [(7, .act (.setLogic ⟨.every, none⟩)), (45, .act .stop)]

theorem samplePattern_replayed :
    samplePrepared.pattern? 0 = some samplePattern ∧ ∃ (stages : List Stage) (fates : List Fate),
      Course samplePrepared.process stages (samplePrepared.performAll [sampleMeanwhile]).process ∧
      told 0 stages = fates.flatMap (·.told "door") ∧
      fates.filterMap Fate.reported? = [.holds, .nothing, .holds] := by
  have found : samplePrepared.pattern? 0 = some samplePattern := by decide +kernel
  have ran : (samplePrepared.performAll [sampleMeanwhile]).pattern? 0 =
      some { samplePattern with cursor := 3 } := by decide +kernel
  obtain ⟨performed, replayed, -⟩ := patterns_are_replayed (moves_performAll _ _) found
  obtain ⟨stages, fates, n, course, told, reported, left, -⟩ := replayed _ (performed [sampleMeanwhile])
  obtain rfl : 3 = n := by
    have cursor := congrArg (Option.map Pattern.cursor) (ran.symm.trans left)
    simpa [samplePattern] using cursor
  exact ⟨found, stages, fates, course, told, reported⟩

end Bench
end Tripwire.Rehearsal
