import Tripwire.Proofs.Circuit.Requests
import Tripwire.Proofs.Circuit.Trail

/-!
# How observations end

An observation ends with an error or without one, or it is cut off, and this shows in the log and nowhere else.
So every course has one beside it in which the same observations end well, and two courses that have the same
one beside them are the same but for their logs.
-/
namespace Tripwire.Circuit

variable {c r : Circuit} {now : Time.Instant} {event : Event} {index : Nat}

def Event.ends? : Event → Option Nat
  | .settled index _ | .cutOff index => some index
  | _ => none

/-- The event, but for how the observation ends. -/
def Event.mended : Event → Event
  | .settled index _ | .cutOff index => .settled index none
  | event => event

theorem Event.mended_of_ends (ends : event.ends? = some index) : event.mended = .settled index none := by
  cases event <;> cases ends <;> rfl

theorem Event.mended_of_stays (stays : event.ends? = none) : event.mended = event := by
  cases event <;> first | rfl | cases stays

theorem Event.ends?_mended (event : Event) : event.mended.ends? = event.ends? := by
  cases event <;> rfl

theorem Event.eq_or_ends_of_alike {event' : Event} (alike : event.mended = event'.mended) :
    event = event' ∧ event.ends? = none ∨
      ∃ index, event.ends? = some index ∧ event'.ends? = some index := by
  have ends : event.ends? = event'.ends? := by
    rw [← ends?_mended, alike, ends?_mended]
  cases ending : event.ends? with
  | none => exact .inl ⟨by rwa [mended_of_stays ending, mended_of_stays (ends ▸ ending)] at alike, rfl⟩
  | some index => exact .inr ⟨index, rfl, ends ▸ ending⟩

theorem Release.observes {cycle : Cycle} (release : Release now c cycle index event r) :
    cycle.observes index = true := by
  cases release with
  | settled observes | cutOff _ observes => exact observes
  | failed error found =>
      have same := List.find?_some found
      exact List.any_eq_true.mpr ⟨_, List.mem_of_find?_eq_some found, same⟩

namespace Process

variable {p p' q q' : Process} {s : Stage} {stages stages' : List Stage}

def SameButLog (p q : Process) : Prop := ∃ log, q = p.logged log

theorem SameButLog.refl (p : Process) : p.SameButLog p := ⟨p.circuit.log, rfl⟩

theorem SameButLog.of_logged {log log' : Log.Ring Noted} (same : p.logged log = q.logged log') :
    p.SameButLog q :=
  ⟨q.circuit.log, show (q.logged log').logged q.circuit.log = _ by rw [← same]; rfl⟩

theorem Step.unique (step : Step now p event q) (step' : Step now p event q') : q = q' :=
  Option.some.inj ((step?_of_step step).symm.trans (step?_of_step step'))

theorem Step.release_of_ends (step : Step now p event q) (ends : event.ends? = some index) :
    ∃ c r cycle, p = ⟨c, .cycling cycle⟩ ∧ q = ⟨r, .cycling (cycle.drop index)⟩ ∧
      Release now c cycle index event r := by
  cases step with
  | release release => cases release <;> cases ends <;> exact ⟨_, _, _, rfl, rfl, by constructor <;> assumption⟩
  | operate progress operation => cases operation <;> cases ends
  | report observes report => cases report <;> cases ends
  | _ => cases ends

theorem Step.mended (step : Step now p event q) (log : Log.Ring Noted) :
    ∃ log', Step now (p.logged log) event.mended (q.logged log') := by
  cases ends : event.ends? with
  | none =>
      obtain ⟨notes, records⟩ := step.records
      rw [Event.mended_of_stays ends]
      exact ⟨_, records.logged log⟩
  | some index =>
      obtain ⟨c, r, cycle, rfl, rfl, release⟩ := step.release_of_ends ends
      obtain ⟨noted, rfl⟩ := release.frame
      rw [Event.mended_of_ends ends]
      exact ⟨log, .release (c := c.logged log) (.settled release.observes)⟩

theorem Step.sameButLog {event' : Event} (step : Step now p event q) (step' : Step now p' event' q')
    (alike : event.mended = event'.mended) (same : p.SameButLog p') : q.SameButLog q' := by
  obtain ⟨log, rfl⟩ := same
  obtain ⟨left, mended⟩ := step.mended .standard
  obtain ⟨right, mended'⟩ := step'.mended .standard
  rw [← alike] at mended'
  exact .of_logged (mended.unique mended')

inductive Stage.Ending (s : Stage) (index : Nat) : List Noted → Prop where
  | well (settled : s.event = .settled index none) : s.Ending index []
  | failed {o : Observing} {error : String} {n : Noted} (settled : s.event = .settled index (some error))
      (observed : o ∈ s.before.observing ∧ o.index = index)
      (noted : n = ⟨.observationFailed (Condition.idOf index) o.watcher.description error, s.now⟩)
      (category : n.entry.category = .error) : s.Ending index [n]
  | cutOff {cycle : Cycle} {limit : Time.Span} {n : Noted} (cut : s.event = .cutOff index)
      (cycling : s.before.progress = .cycling cycle) (bounded : cycle.limit? = some limit)
      (noted : n = ⟨.timedOut (Condition.idOf index) limit.toMillis, s.now⟩)
      (category : n.entry.category = .condition) : s.Ending index [n]

theorem records_release {cycle : Cycle} (release : Release now c cycle index event r)
    (taken : s = ⟨⟨c, .cycling cycle⟩, now, event, ⟨r, .cycling (cycle.drop index)⟩⟩) :
    ∃ notes, s.Ending index notes ∧ Records s notes := by
  subst taken
  cases release with
  | settled observes =>
      exact ⟨[], .well rfl, .other rfl nofun (plain_nil 2), fun _ => .release (.settled observes)⟩
  | @failed o error found =>
      have same : o.index = index := by simpa using List.find?_some found
      exact ⟨_, .failed rfl ⟨List.mem_of_find?_eq_some found, same⟩ rfl rfl,
        .other rfl nofun (plain_note 1 rfl), fun _ => .release (.failed error found)⟩
  | cutOff bounded observes =>
      exact ⟨_, .cutOff rfl rfl bounded rfl rfl, .other rfl nofun (plain_note 1 rfl),
        fun _ => .release (.cutOff bounded observes)⟩

theorem Step.ending (step : Step now p event q) (ends : event.ends? = some index) :
    (⟨p, now, event, q⟩ : Stage).Ending index (⟨p, now, event, q⟩ : Stage).notes := by
  obtain ⟨c, r, cycle, rfl, rfl, release⟩ := step.release_of_ends ends
  obtain ⟨notes, ending, records⟩ := records_release release rfl
  exact records.notes_eq ▸ ending

def Stage.mended (s : Stage) : Time.Instant × Event := (s.now, s.event.mended)

def Stage.handed? (s : Stage) : Option Request := if s.calls then s.before.request? else none

/-- Two moments at which everything is the same but the log. -/
structure Corresponds (s s' : Stage) : Prop where
  before : s.before.SameButLog s'.before
  after : s.after.SameButLog s'.after
  satisfied : s.after.circuit.satisfied = s'.after.circuit.satisfied
  counters : s.after.circuit.counters = s'.after.circuit.counters
  status : s.after.circuit.status = s'.after.circuit.status
  result : s.after.result? = s'.after.result?
  handed : s.handed? = s'.handed?

inductive Differ : List Stage → List Stage → List Noted → List Noted → Prop where
  | nil : Differ [] [] [] []
  | same {stages stages' : List Stage} {s s' : Stage} {log log' notes : List Noted}
      (differ : Differ stages stages' log log') (event : s.event = s'.event) :
      Differ (stages ++ [s]) (stages' ++ [s']) (log ++ notes) (log' ++ notes)
  | ended {stages stages' : List Stage} {s s' : Stage} {log log' notes notes' : List Noted} {index : Nat}
      (differ : Differ stages stages' log log') (ending : s.Ending index notes)
      (ending' : s'.Ending index notes') :
      Differ (stages ++ [s]) (stages' ++ [s']) (log ++ notes) (log' ++ notes')

theorem Course.mended (course : Course p stages q) (log : Log.Ring Noted) :
    ∃ stages' log', Course (p.logged log) stages' (q.logged log') ∧
      stages'.map (fun s => (s.now, s.event)) = stages.map Stage.mended := by
  induction course with
  | refl => exact ⟨[], log, .refl, rfl⟩
  | step course taken ih =>
      obtain ⟨stages', between, course', same⟩ := ih
      obtain ⟨log', step⟩ := (step_of_step? taken).mended between
      refine ⟨_, log', .step course' (step?_of_step step), ?_⟩
      rw [List.map_append, List.map_append, same]
      rfl

theorem Stage.handed?_of_ends {s : Stage} (ends : s.event.ends? = some index) : s.handed? = none := by
  obtain ⟨before, now, event, after⟩ := s
  cases event <;> first | rfl | cases ends

theorem Step.corresponds {event' : Event} (step : Step now p event q) (step' : Step now p' event' q')
    (alike : event.mended = event'.mended) (same : p.SameButLog p') :
    Corresponds ⟨p, now, event, q⟩ ⟨p', now, event', q'⟩ := by
  have after := step.sameButLog step' alike same
  have handed : (⟨p, now, event, q⟩ : Stage).handed? = (⟨p', now, event', q'⟩ : Stage).handed? := by
    obtain ⟨log, rfl⟩ := same
    rcases Event.eq_or_ends_of_alike alike with ⟨rfl, -⟩ | ⟨index, ends, ends'⟩
    · rfl
    · rw [Stage.handed?_of_ends ends, Stage.handed?_of_ends ends']
  obtain ⟨log, rfl⟩ := same
  obtain ⟨log', rfl⟩ := after
  exact ⟨⟨log, rfl⟩, ⟨log', rfl⟩, rfl, rfl, rfl, rfl, handed⟩

theorem Differ.snoc {event' : Event} {log log' : List Noted} (differ : Differ stages stages' log log')
    (step : Step now p event q) (step' : Step now p' event' q') (alike : event.mended = event'.mended)
    (same : p.SameButLog p') :
    Differ (stages ++ [⟨p, now, event, q⟩]) (stages' ++ [⟨p', now, event', q'⟩])
      (log ++ (⟨p, now, event, q⟩ : Stage).notes) (log' ++ (⟨p', now, event', q'⟩ : Stage).notes) := by
  rcases Event.eq_or_ends_of_alike alike with ⟨rfl, -⟩ | ⟨index, ends, ends'⟩
  · obtain ⟨before, rfl⟩ := same
    exact .same differ rfl
  · exact .ended differ (step.ending ends) (step'.ending ends')

theorem Course.corresponds (course : Course p stages q) (course' : Course p' stages' q')
    (same : p.SameButLog p') (alike : stages.map Stage.mended = stages'.map Stage.mended) :
    q.SameButLog q' ∧ List.Forall₂ Corresponds stages stages' ∧
      Differ stages stages' (appended stages) (appended stages') := by
  induction course generalizing stages' q' with
  | refl =>
      obtain rfl := List.map_eq_nil_iff.mp alike.symm
      rw [course'.eq_of_nil]
      exact ⟨same, .nil, .nil⟩
  | @step stages q r now event course taken ih =>
      rcases List.eq_nil_or_concat stages' with rfl | ⟨stages', ⟨before', now', event', after'⟩, rfl⟩
      · simp at alike
      · rw [List.concat_eq_append] at course' alike ⊢
        rw [List.map_append, List.map_append] at alike
        obtain ⟨earlier, newest⟩ := List.append_inj' alike rfl
        simp only [Stage.mended, List.map_cons, List.map_nil, List.cons.injEq, Prod.mk.injEq] at newest
        obtain ⟨⟨rfl, newest⟩, -⟩ := newest
        have step' := course'.taken (List.mem_append_right _ (List.mem_singleton_self _))
        obtain ⟨course', rfl⟩ := course'.of_snoc
        have step := step_of_step? taken
        obtain ⟨between, moments, differ⟩ := ih course' earlier
        rw [appended_snoc, appended_snoc]
        exact ⟨step.sameButLog step' newest between,
          List.rel_append moments (.cons (step.corresponds step' newest between) .nil),
          differ.snoc step step' newest between⟩

theorem Step.after_of_ends (step : Step now p event q) (ends : event.ends? = some index) :
    ∃ cycle, p.progress = .cycling cycle ∧
      q = ⟨p.circuit.logged ((⟨p, now, event, q⟩ : Stage).notes.foldl Log.Ring.append p.circuit.log),
        .cycling (cycle.drop index)⟩ := by
  have log := step.log
  obtain ⟨c, r, cycle, rfl, rfl, release⟩ := step.release_of_ends ends
  refine ⟨cycle, rfl, ?_⟩
  rw [← log]
  obtain ⟨log, rfl⟩ := release.frame
  rfl

theorem events_of_follow {events : List (Time.Instant × Event)}
    (followed : p.follow events = some (stages, q)) : stages.map (fun s => (s.now, s.event)) = events := by
  induction events generalizing p stages with
  | nil => cases followed; rfl
  | cons first rest ih =>
      obtain ⟨now, event⟩ := first
      simp only [follow] at followed
      split at followed
      · cases followed
      · obtain ⟨⟨later, last⟩, continued, same⟩ := Option.map_eq_some_iff.mp followed
        cases same
        rw [List.map_cons, ih continued]

theorem mended_of_follow {events : List (Time.Instant × Event)}
    (followed : p.follow events = some (stages, q)) :
    stages.map Stage.mended = events.map (Prod.map id Event.mended) := by
  rw [← events_of_follow followed, List.map_map]
  rfl

/-- How observations end shows in the log and nowhere else. For every course there is one in which they all end
well. The end of an observation takes nothing back and leaves one note at most, which is an error if it failed
and tells of a condition if it was cut off. Two courses that are the same but for such ends are the same at every
moment but for these notes. -/
theorem endings_show_only_in_log (course : Course .new stages p) :
    (∃ stages' p', Course .new stages' p' ∧
      stages'.map (fun s => (s.now, s.event)) = stages.map Stage.mended) ∧
    (∀ s ∈ stages, ∀ index, s.event.ends? = some index → s.Ending index s.notes ∧
      ∃ cycle, s.before.progress = .cycling cycle ∧
        s.after = ⟨s.before.circuit.logged (s.notes.foldl Log.Ring.append s.before.circuit.log),
          .cycling (cycle.drop index)⟩) ∧
    ∀ stages' p', Course .new stages' p' → stages.map Stage.mended = stages'.map Stage.mended →
      p.SameButLog p' ∧ List.Forall₂ Corresponds stages stages' ∧
        ∃ log log', Differ stages stages' log log' ∧
          (log.length ≤ Log.Ring.standardCapacity → p.circuit.entries none = log.map Noted.entry) ∧
          (log'.length ≤ Log.Ring.standardCapacity → p'.circuit.entries none = log'.map Noted.entry) := by
  refine ⟨?_, ?_, ?_⟩
  · obtain ⟨stages', log, mended, same⟩ := course.mended .standard
    exact ⟨stages', _, mended, same⟩
  · intro s member index ends
    have step := course.taken member
    exact ⟨step.ending ends, step.after_of_ends ends⟩
  · intro stages' p' course' alike
    obtain ⟨same, moments, differ⟩ := course.corresponds course' (.refl _) alike
    exact ⟨same, moments, _, _, differ, course.entries_eq, course'.entries_eq⟩

def sampleEndings (first second : Event) : List Event :=
  sampleTwo ++ [.setLogic ⟨.threshold 1, some ⟨1000000⟩⟩, .next, .matched 0, .call, first, second,
    .answered (.ok .null), .close, .leave]

theorem sampleEndings_show_only_in_log :
    ∃ stages p stages' p', Course .new stages p ∧ Course .new stages' p' ∧
      stages.map Stage.mended = stages'.map Stage.mended ∧
      p.circuit.satisfied.ids = [1] ∧ p'.circuit.satisfied.ids = [1] ∧ List.Forall₂ Corresponds stages stages' ∧
      (p.circuit.entries none).length = (p'.circuit.entries none).length + 2 := by
  have followed : ((sample (sampleEndings (.settled 0 (some "lost")) (.cutOff 1))).any fun run =>
        run.2.circuit.satisfied.ids = [1] && (run.2.circuit.entries none).length = 6) &&
      (sample (sampleEndings (.settled 0 none) (.settled 1 none))).any fun run =>
        (run.2.circuit.entries none).length = 4 := by decide +kernel
  simp only [Bool.and_eq_true, Option.any_eq_true, decide_eq_true_eq] at followed
  obtain ⟨⟨⟨stages, p⟩, run, satisfied, more⟩, ⟨stages', p'⟩, run', fewer⟩ := followed
  have course := course_of_follow run
  have course' := course_of_follow run'
  have alike : stages.map Stage.mended = stages'.map Stage.mended := by
    rw [mended_of_follow run, mended_of_follow run']
    rfl
  obtain ⟨-, -, both⟩ := endings_show_only_in_log course
  obtain ⟨⟨log, rfl⟩, moments, -⟩ := both stages' p' course' alike
  exact ⟨stages, p, stages', _, course, course', alike, satisfied, satisfied, moments,
    more.trans (congrArg (· + 2) fewer.symm)⟩

end Process
end Tripwire.Circuit
