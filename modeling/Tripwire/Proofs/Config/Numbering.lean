import Tripwire.Config.Load
import Tripwire.Proofs.Circuit.AuditTrail
import Tripwire.Rehearsal.Bench

/-!
# How conditions are numbered

Three places number the conditions of a configuration: their registration, the cycles that observe them,
and the check of a target against them. Up to the largest number all three count from one in the order of
the configuration. So what a watcher reports is recorded under the number that registration gave it, and a
target is accepted exactly if it is the number of one watcher, on which the logic then waits.
-/
namespace Tripwire

namespace Condition

variable {count index id : Nat}

theorem getElem?_idsOf_eq_some_iff :
    (idsOf count)[index]? = some id ↔ index < count ∧ idOf index = id := by
  simp [idsOf, List.getElem?_eq_some_iff]

theorem idOf_of_lt (few : index + 1 < Nat.pow 2 32) : idOf index = index + 1 :=
  Nat.min_eq_left (Nat.le_sub_one_of_lt few)

theorem idsOf_eq_range' (few : count < Nat.pow 2 32) : idsOf count = List.range' 1 count := by
  rw [idsOf, List.range'_eq_map_range]
  refine List.map_congr_left fun index within => ?_
  have below := List.mem_range.mp within
  rw [idOf_of_lt (by omega), Nat.add_comm]

theorem existsUnique_getElem?_idsOf (few : count < Nat.pow 2 32) :
    (∃! index : Nat, (idsOf count)[index]? = some id) ↔ 1 ≤ id ∧ id ≤ count := by
  simp only [getElem?_idsOf_eq_some_iff]
  constructor
  · rintro ⟨index, ⟨within, rfl⟩, -⟩
    rw [idOf_of_lt (by omega)]
    omega
  · rintro ⟨positive, most⟩
    refine ⟨id - 1, ⟨by omega, ?_⟩, ?_⟩
    · rw [idOf_of_lt (by omega)]
      omega
    · rintro other ⟨within, rfl⟩
      rw [idOf_of_lt (by omega), Nat.add_sub_cancel]

end Condition

namespace Circuit

variable {c : Circuit} {target : Nat} {interval? : Option Time.Span}

theorem outcome_of_target (logic : c.logic? = some ⟨.target target, interval?⟩) :
    c.outcome = if target ∈ c.satisfied then .fire else .wait := by
  simp [outcome, logic, Condition.decideOutcome, Condition.Policy.met]

namespace Process

variable {p q : Process} {s : Stage} {stages : List Stage} {now : Time.Instant} {event : Event}
  {index : Nat} {holds : Bool}

/-- A stage in a cycle that begins while the conditions of a process are still registered. -/
inductive CycleUnder (p : Process) (s : Stage) : Prop where
  | intro {earlier during : List Stage} {now : Time.Instant} {q r : Process}
      (reached : Course p earlier q) (unset : ∀ t ∈ earlier, t.registers = false)
      (begins : q.step? now .next = some r)
      (cycle : Course r during s.before) (within : ∀ t ∈ during, t.event ≠ .next)
      (taken : s.before.step? s.now s.event = some s.after)

structure Stage.RecordedUnder (s : Stage) (id : Nat) (holds : Bool) : Prop where
  satisfied : s.after.circuit.satisfied = s.before.circuit.satisfied.told (some (id, holds))
  noted : s.notes.head? = some ⟨reportNote id holds s.after.circuit.satisfied.ids, s.now⟩

def latest? (ids : List Nat) (id : Nat) (stages : List Stage) : Option Bool :=
  ((callbacks stages).filter fun t => ids[t.1]? = some id).getLast?.map (·.2)

theorem Course.observing (course : Course p stages q) (within : ∀ s ∈ stages, s.event ≠ .next) :
    ∀ o ∈ q.observing, o ∈ p.observing := by
  induction course with
  | refl => exact fun _ member => member
  | step course taken ih =>
      obtain ⟨within, here⟩ := List.forall_mem_append.mp within
      have newest := here _ (List.mem_singleton_self _)
      exact fun o member => ih within o ((step_of_step? taken).observing newest o member)

theorem CycleUnder.step (within : CycleUnder p s) : Step s.now s.before s.event s.after := by
  obtain ⟨-, -, -, -, -, taken⟩ := within
  exact step_of_step? taken

theorem CycleUnder.watcher (within : CycleUnder p s) (told : s.callback? = some (index, holds)) :
    ∃ watcher, p.circuit.watchers[index]? = some watcher ∧ ⟨index, watcher⟩ ∈ s.before.observing := by
  obtain ⟨⟨_, watcher⟩, member, rfl⟩ := within.step.observed told
  obtain ⟨reached, unset, begins, cycle, within, -⟩ := within
  have began := step_of_step? begins
  have kept := began.kept_next _ (cycle.observing within _ member)
  rw [(began.conditions rfl).1, reached.watchers unset] at kept
  exact ⟨watcher, kept, member⟩

theorem Step.recordedUnder (step : Step now p event q)
    (told : (⟨p, now, event, q⟩ : Stage).callback? = some (index, holds)) :
    (⟨p, now, event, q⟩ : Stage).RecordedUnder (Condition.idOf index) holds := by
  constructor
  · have unset : (⟨p, now, event, q⟩ : Stage).registers = false := by
      cases event <;> first | rfl | cases told
    have satisfied := step.satisfied_eq unset
    rw [told] at satisfied
    exact satisfied
  · have tells := step.tells
    generalize (⟨p, now, event, q⟩ : Stage).notes = notes at tells ⊢
    cases tells with
    | report told' =>
        rw [told, Option.some.injEq, Prod.mk.injEq] at told'
        obtain ⟨rfl, rfl⟩ := told'
        rfl
    | run contentHash answered plain =>
        obtain rfl : event = .answered _ := answered
        cases told
    | other untold unanswered plain => cases untold.symm.trans told

theorem Stage.outcome?_of_target (told : s.callback? = some (index, true))
    (logic : s.before.circuit.logic? = some ⟨.target target, interval?⟩) :
    s.outcome? =
      some (if Condition.idOf index = target then .fire else s.before.circuit.outcome) := by
  obtain ⟨p, now, event, q⟩ := s
  cases event with
  | matched index' =>
      cases told
      change some (p.circuit.recordMatch now (Condition.idOf index)).outcome = _
      have recorded : (p.circuit.recordMatch now (Condition.idOf index)).logic? =
        some ⟨.target target, interval?⟩ := logic
      rw [outcome_of_target recorded, outcome_of_target logic]
      simp only [recordMatch, write, Condition.Satisfied.mem_insert]
      by_cases same : Condition.idOf index = target
      · simp [same]
      · simp [same, Ne.symm same]
  | _ => cases told

theorem latest?_eq (course : Course p stages q) (kept : Kept p)
    (unset : ∀ s ∈ stages, s.registers = false) (id : Nat) :
    latest? p.circuit.conditionIds id stages = (reportsOn id (callbacks stages)).getLast? := by
  have watched := (course.watched kept unset).2.2
  rw [latest?, reportsOn, List.getLast?_map]
  congr 2
  refine List.filter_congr fun t member => decide_eq_decide.mpr ?_
  rw [conditionIds, Condition.getElem?_idsOf_eq_some_iff]
  exact and_iff_right (watched t member)

theorem Course.fires_iff_of_target (course : Course p stages q) (kept : Kept p)
    (forgotten : p.circuit.satisfied = .empty) (unset : ∀ s ∈ stages, s.registers = false)
    (logic : q.circuit.logic? = some ⟨.target target, interval?⟩) :
    q.circuit.outcome = .fire ↔ latest? p.circuit.conditionIds target stages = some true := by
  have satisfied : target ∈ q.circuit.satisfied ↔
      (reportsOn target (callbacks stages)).getLast? = some true := by
    rw [course.satisfied_iff_reportsOn unset, forgotten]
    cases (reportsOn target (callbacks stages)).getLast? <;> simp
  rw [outcome_of_target logic, latest?_eq course kept unset, ← satisfied]
  simp

end Process
end Circuit

namespace Rehearsal.Bench

theorem act_setConditions (b : Bench) (plans : List WatcherPlan) :
    b.act (.setConditions plans) = (b.register plans, .ids (b.register plans).circuit.conditionIds) := rfl

theorem register_process (b : Bench) (plans : List WatcherPlan) : ∃ watchers : List Circuit.Watcher,
    watchers.map (·.description) = plans.map (fun plan => (WatcherState.ofPlan plan).describe) ∧
      (b.register plans).process = ⟨b.circuit.setConditions watchers, b.process.progress⟩ := by
  refine ⟨_, ?_, rfl⟩
  rw [List.map_map]
  change ((plans.map WatcherState.ofPlan).zipIdx.map (WatcherState.describe ∘ Prod.fst)) = _
  rw [← List.map_map, List.zipIdx_map_fst, List.map_map]
  rfl

theorem register_spec (b : Bench) (plans : List WatcherPlan) :
    (b.register plans).circuit.watchers.map (·.description) =
        plans.map (fun plan => (WatcherState.ofPlan plan).describe) ∧
      (b.register plans).circuit.satisfied = .empty ∧
      (b.register plans).process.observing = b.process.observing := by
  obtain ⟨watchers, described, process⟩ := b.register_process plans
  obtain ⟨status, same⟩ := Circuit.setConditions_eq b.circuit watchers
  have circuit := (congrArg (·.circuit) process).trans same
  refine ⟨?_, congrArg (·.satisfied) circuit, ?_⟩
  · exact (congrArg (·.watchers.map (·.description)) circuit).trans described
  · rw [process]
    rfl

end Rehearsal.Bench

namespace Config

variable {config : Config}

open Circuit Process Rehearsal

theorem fault?_of_target {target : Nat} {interval? : Option Time.Span}
    (logic : config.logic? = some ⟨.target target, interval?⟩) :
    config.fault? = none ↔ ({ config with logic? := none } : Config).fault? = none ∧
      1 ≤ target ∧ target ≤ config.conditions.length := by
  simp only [fault?, logic]
  split
  · simp
  · split
    · simp
    · simp

/-- The numbers that registration returns count the conditions from one, in their order. What a watcher reports in
a cycle is recorded under the number that it was given. A target is accepted exactly if it is the number of one
watcher. Then a match by this one fires and a match by another changes nothing, so that the logic fires exactly as
long as this one's last report is a match. -/
theorem numbering_agrees (few : config.conditions.length < Nat.pow 2 32) (b : Bench) :
    ∃ registered ids, b.act (.setConditions (config.watchers.map .pattern)) = (registered, .ids ids) ∧
      ids = List.range' 1 config.conditions.length ∧ ids.Nodup ∧
      registered.circuit.watchers.map (·.description) = config.watchers.map (·.describe) ∧
      (∀ s index holds, CycleUnder registered.process s → s.callback? = some (index, holds) →
        ∃ id watcher, ids[index]? = some id ∧ registered.circuit.watchers[index]? = some watcher ∧
          ⟨index, watcher⟩ ∈ s.before.observing ∧ s.RecordedUnder id holds) ∧
      ∀ target interval?, config.logic? = some ⟨.target target, interval?⟩ →
        (config.fault? = none ↔
          ({ config with logic? := none } : Config).fault? = none ∧ ∃! index : Nat, ids[index]? = some target) ∧
        (∀ s index, CycleUnder registered.process s → s.callback? = some (index, true) →
          s.before.circuit.logic? = config.logic? →
          s.outcome? = some (if ids[index]? = some target then .fire else s.before.circuit.outcome)) ∧
        ∀ stages q, Course registered.process stages q → (∀ s ∈ stages, s.registers = false) →
          b.process.observing = [] → q.circuit.logic? = config.logic? →
          (q.circuit.outcome = .fire ↔ latest? ids target stages = some true) := by
  obtain ⟨described, forgotten, observing⟩ := b.register_spec (config.watchers.map .pattern)
  have act := b.act_setConditions (config.watchers.map .pattern)
  generalize b.register (config.watchers.map .pattern) = registered at act described forgotten observing
  rw [List.map_map] at described
  have length : registered.circuit.watchers.length = config.conditions.length := by
    have same := congrArg List.length described
    simpa only [List.length_map, watchers] using same
  have ids : registered.circuit.conditionIds = Tripwire.Condition.idsOf config.conditions.length := by
    rw [conditionIds, length]
  have range := ids.trans (Tripwire.Condition.idsOf_eq_range' few)
  have numbered {index id : Nat} {watcher : Watcher}
      (found : registered.circuit.watchers[index]? = some watcher) :
      registered.circuit.conditionIds[index]? = some id ↔ Tripwire.Condition.idOf index = id := by
    have within := (List.getElem?_eq_some_iff.mp found).1
    rw [ids, Tripwire.Condition.getElem?_idsOf_eq_some_iff, and_iff_right (length ▸ within)]
  refine ⟨registered, _, act, range, range ▸ List.nodup_range', described, ?_, ?_⟩
  · intro s index holds cycle told
    obtain ⟨watcher, found, observes⟩ := cycle.watcher told
    exact ⟨_, watcher, (numbered found).mpr rfl, found, observes, cycle.step.recordedUnder told⟩
  · intro target interval? logic
    refine ⟨?_, ?_, ?_⟩
    · rw [fault?_of_target logic, ids, Tripwire.Condition.existsUnique_getElem?_idsOf few]
    · intro s index cycle told given
      obtain ⟨watcher, found, -⟩ := cycle.watcher told
      rw [Stage.outcome?_of_target told (given.trans logic)]
      simp only [numbered found]
    · intro stages q course unset still given
      exact course.fires_iff_of_target (kept_of_quiet (observing.trans still)) forgotten unset (given.trans logic)

def sampleTarget : Config :=
  { standard with
    logic? := some ⟨.target 2, none⟩
    conditions := [⟨"door", [.holds], 0⟩, ⟨"smoke", [.holds], 0⟩] }

def sampleBench : Bench :=
  ((Bench.new (.echo none) .standard).act (.setConditions (sampleTarget.watchers.map .pattern))).1

def sampleOpening : List (Time.Instant × Event) :=
  (.setLogic ⟨.target 2, none⟩ :: sampleStart.drop 2).map fun event => (Bench.now, event)

theorem sampleTarget_numbered :
    (∃! index : Nat, [1, 2][index]? = some 2) ∧ ∃ s, CycleUnder sampleBench.process s ∧
      s.callback? = some (1, true) ∧ s.RecordedUnder 2 true ∧ s.outcome? = some .fire ∧
      s.after.circuit.outcome = .fire := by
  have followed : (sampleBench.process.follow sampleOpening).any fun run =>
      (run.2.step? Bench.now .next).any fun begun => (begun.step? Bench.now (.matched 0)).any fun first =>
        (first.step? Bench.now (.matched 1)).any fun second =>
          run.1.all (!·.registers) && run.1.filterMap Stage.callback? = [] &&
            first.circuit.logic? = sampleTarget.logic? && second.circuit.logic? = sampleTarget.logic? := by
    decide +kernel
  simp only [Option.any_eq_true, Bool.and_eq_true, decide_eq_true_eq, List.all_eq_true,
    Bool.not_eq_true'] at followed
  obtain ⟨⟨earlier, q⟩, run, begun, begins, first, matched, second, taken, decided⟩ := followed
  obtain ⟨⟨⟨unset, quiet⟩, given⟩, still⟩ := decided
  have reached := course_of_follow run
  have course := ((reached.step begins).step matched).step taken
  have cycle : CycleUnder sampleBench.process ⟨first, Bench.now, .matched 1, second⟩ :=
    .intro reached unset begins (.step .refl matched) (by simp) taken
  obtain ⟨registered, _, act, rfl, -, -, recorded, targets⟩ :=
    @numbering_agrees sampleTarget (by decide) (Bench.new (.echo none) .standard)
  obtain rfl : sampleBench = registered := congrArg Prod.fst act
  have ids : List.range' 1 sampleTarget.conditions.length = [1, 2] := rfl
  rw [ids] at recorded targets
  obtain ⟨accepted, fires, last⟩ := targets 2 none rfl
  obtain ⟨id, watcher, numbered, -, -, under⟩ := recorded _ 1 true cycle rfl
  obtain rfl : 2 = id := Option.some.inj numbered
  have told : latest? [1, 2] 2 (((earlier ++ [⟨q, Bench.now, .next, begun⟩]) ++
      [⟨begun, Bench.now, .matched 0, first⟩]) ++ [⟨first, Bench.now, .matched 1, second⟩]) = some true := by
    simp only [latest?, callbacks, List.filterMap_append, quiet]
    rfl
  refine ⟨(accepted.mp (by decide +kernel)).2, _, cycle, rfl, under, fires _ 1 cycle rfl given, ?_⟩
  refine (last _ second course ?_ rfl still).mpr told
  simp only [List.forall_mem_append, List.forall_mem_singleton]
  exact ⟨⟨⟨unset, rfl⟩, rfl⟩, rfl⟩

end Config
end Tripwire
