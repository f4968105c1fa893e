import Mathlib.Data.List.Induction
import Mathlib.Data.List.Perm.Subperm
import Tripwire.Proofs.Circuit.Course

/-!
# Who reported what is satisfied

What is satisfied since the conditions were last replaced is what the reports since then make of it, and
these come also from observations that the cycle in progress had begun before. Such a report is taken for
one on the new condition with the same number. So what is satisfied comes from the registered watchers
exactly if no match of a replaced one stands alone.
-/
namespace Tripwire

namespace Condition

theorem Satisfied.size_eq_iff {satisfied : Satisfied} {total : Nat}
    (numbered : ∀ id ∈ satisfied, 1 ≤ id ∧ id ≤ total) :
    satisfied.size = total ↔ ∀ id, 1 ≤ id → id ≤ total → id ∈ satisfied := by
  have distinct : satisfied.ids.Nodup := satisfied.ascending.imp Nat.ne_of_lt
  have among : satisfied.ids ⊆ List.range' 1 total := by
    intro id member
    have bounds := numbered id member
    rw [List.mem_range'_1]
    omega
  have sub := List.subperm_of_subset distinct among
  constructor
  · intro full id positive most
    have same := sub.perm_of_length_le (by simp [← full, size])
    exact same.mem_iff.mpr (List.mem_range'_1.mpr (by omega))
  · intro all
    have whole : List.range' 1 total ⊆ satisfied.ids := by
      intro id member
      have bounds := List.mem_range'_1.mp member
      exact all id bounds.1 (by omega)
    have least := (List.subperm_of_subset List.nodup_range' whole).length_le
    have most := sub.length_le
    rw [List.length_range'] at least most
    exact Nat.le_antisymm most least

theorem every_fires_iff {satisfied : Satisfied} {total : Nat}
    (numbered : ∀ id ∈ satisfied, 1 ≤ id ∧ id ≤ total) :
    decideOutcome (some .every) satisfied total = .fire ↔
      ∀ id, 1 ≤ id → id ≤ total → id ∈ satisfied := by
  rw [← Satisfied.size_eq_iff numbered]
  simp [decideOutcome, Policy.met]

end Condition

namespace Circuit

variable {c c' : Circuit} {now : Time.Instant} {event : Event}

namespace Process

variable {p q : Process} {stages : List Stage} {id : Nat}

def observing (p : Process) : List Observing :=
  match p.progress with
  | .cycling cycle => cycle.observing
  | _ => []

def Stage.registers (s : Stage) : Bool :=
  match s.event with
  | .setConditions _ => true
  | _ => false

def Stage.reports? (s : Stage) (id : Nat) : Option Bool :=
  match s.event with
  | .matched index => if Condition.idOf index = id then some true else none
  | .unmatched index => if Condition.idOf index = id then some false else none
  | _ => none

def Stage.MatchedIn (s : Stage) (c : Circuit) (id : Nat) : Prop :=
  ∃ o ∈ s.before.observing, s.event = .matched o.index ∧ Condition.idOf o.index = id ∧
    c.watchers[o.index]? = some o.watcher

def since (stages : List Stage) : List Stage :=
  stages.foldl (fun later s => if s.registers then [] else later ++ [s]) []

theorem since_snoc (stages : List Stage) (s : Stage) :
    since (stages ++ [s]) = if s.registers then [] else since stages ++ [s] := by
  simp [since]

theorem mem_of_mem_since {s : Stage} (member : s ∈ since stages) : s ∈ stages := by
  induction stages using List.reverseRecOn with
  | nil => exact member
  | append_singleton stages t ih =>
      rw [since_snoc] at member
      split at member
      · cases member
      · rcases List.mem_append.mp member with earlier | newest
        · exact List.mem_append_left _ (ih earlier)
        · exact List.mem_append_right _ newest

def Standing (id : Nat) (stages : List Stage) : Prop :=
  ∃ first s rest, stages = first ++ s :: rest ∧ s.reports? id = some true ∧
    ∀ t ∈ rest, t.reports? id ≠ some false

theorem not_standing_nil : ¬Standing id [] := by
  rintro ⟨first, s, rest, same, -⟩
  simp at same

theorem standing_snoc {s : Stage} :
    Standing id (stages ++ [s]) ↔
      match s.reports? id with
      | some holds => holds = true
      | none => Standing id stages := by
  constructor
  · rintro ⟨first, t, rest, same, reports, untaken⟩
    -- Either the report that stands is the new one, or the new one does not take it back.
    rcases List.eq_nil_or_concat rest with rfl | ⟨middle, last, rfl⟩
    · obtain ⟨-, newest⟩ := List.append_inj' same rfl
      cases newest
      simp [reports]
    · rw [List.concat_eq_append, ← List.cons_append, ← List.append_assoc] at same
      obtain ⟨rfl, newest⟩ := List.append_inj' same rfl
      cases newest
      have kept := untaken s (by simp)
      cases reported : s.reports? id with
      | none => exact ⟨first, t, middle, rfl, reports, fun u member => untaken u (by simp [member])⟩
      | some holds => cases holds <;> simp [reported] at kept ⊢
  · intro decided
    cases reported : s.reports? id with
    | none =>
        rw [reported] at decided
        obtain ⟨first, t, rest, rfl, reports, untaken⟩ := decided
        refine ⟨first, t, rest ++ [s], by simp, reports, ?_⟩
        intro u member
        rcases List.mem_append.mp member with earlier | newest
        · exact untaken u earlier
        · rw [List.mem_singleton.mp newest, reported]
          simp
    | some holds =>
        rw [reported] at decided
        exact ⟨stages, s, [], rfl, by rw [reported, decided], by simp⟩

/-! ## What steps do to conditions -/

theorem satisfied_openSession (c : Circuit) (now : Time.Instant) (options : Options) (key : String) :
    (openSession c now options key).circuit.watchers = c.watchers ∧
      (openSession c now options key).circuit.satisfied = c.satisfied ∧
      (openSession c now options key).observing = [] := by
  rcases openSession_cases c now options key with ⟨-, opened⟩ | ⟨fault, refused⟩
  · rw [opened]
    exact ⟨rfl, rfl, rfl⟩
  · rw [refused]
    exact ⟨rfl, rfl, rfl⟩

theorem Step.conditions (step : Step now p event q)
    (kept : (⟨p, now, event, q⟩ : Stage).registers = false) :
    q.circuit.watchers = p.circuit.watchers ∧ ∀ id, id ∈ q.circuit.satisfied ↔
      match (⟨p, now, event, q⟩ : Stage).reports? id with
      | some holds => holds = true
      | none => id ∈ p.circuit.satisfied := by
  cases step with
  | operate progress operation =>
      have unset : ∀ watchers, event ≠ .setConditions watchers := by
        intro watchers set
        simp [Stage.registers, set] at kept
      obtain ⟨watchers, satisfied⟩ := operation.conditions unset
      refine ⟨watchers, ?_⟩
      intro id
      cases operation <;> simp only [Stage.reports?] <;> rw [satisfied]
  | forgo progress options begun =>
      obtain ⟨-, -, log, rfl⟩ := begin_over begun
      exact ⟨rfl, fun id => Iff.rfl⟩
  | request progress begun keyless =>
      obtain ⟨-, -, -, rfl⟩ := begin_running begun
      exact ⟨rfl, fun id => Iff.rfl⟩
  | @enter c _ options key progress begun keyed =>
      obtain ⟨-, -, -, rfl⟩ := begin_running begun
      obtain ⟨watchers, satisfied, -⟩ :=
        satisfied_openSession { c with status := .running } now options key
      exact ⟨watchers, fun id => by rw [satisfied]; rfl⟩
  | @issue c contentHash options identity =>
      obtain ⟨watchers, satisfied, -⟩ := satisfied_openSession
        (c.write now (.identityIssued identity)) now options identity.publicKey
      exact ⟨watchers, fun id => by rw [satisfied]; rfl⟩
  | @report c r cycle event index observes report =>
      cases report with
      | matched =>
          refine ⟨rfl, ?_⟩
          intro id
          simp only [Stage.reports?, evaluated, recordMatch, write, Condition.Satisfied.mem_insert]
          by_cases same : Condition.idOf index = id
          · simp [same]
          · simp [same, Ne.symm same]
      | unmatched =>
          refine ⟨rfl, ?_⟩
          intro id
          simp only [Stage.reports?, evaluated, recordUnmatch, write, Condition.Satisfied.mem_erase]
          by_cases same : Condition.idOf index = id
          · simp [same]
          · simp [same, Ne.symm same]
  | release release =>
      cases release <;> exact ⟨rfl, fun id => Iff.rfl⟩
  | @answer c cycle contentHash flying answer =>
      cases answer with
      | ok response =>
          obtain ⟨log, finished⟩ := finishRun_ok c now contentHash response
          rw [finished]
          exact ⟨rfl, fun id => Iff.rfl⟩
      | error failure => exact ⟨rfl, fun id => Iff.rfl⟩
  | _ => exact ⟨rfl, fun id => Iff.rfl⟩

def Kept (p : Process) : Prop :=
  ∀ o ∈ p.observing, p.circuit.watchers[o.index]? = some o.watcher

theorem kept_of_quiet (quiet : p.observing = []) : Kept p := by
  simp [Kept, quiet]

theorem Step.kept_next (step : Step now p .next q) : Kept q := by
  cases step with
  | halt pause? stopped => exact kept_of_quiet rfl
  | begin pause? going =>
      intro o member
      obtain ⟨⟨watcher, index⟩, found, rfl⟩ := List.mem_map.mp member
      exact List.mem_zipIdx_iff_getElem?.mp found
  | operate progress operation => cases operation
  | report observes report => cases report
  | release release => cases release

theorem Step.observing (step : Step now p event q) (within : event ≠ .next) :
    ∀ o ∈ q.observing, o ∈ p.observing := by
  intro o member
  cases step with
  | halt | begin => exact absurd rfl within
  | enter | issue =>
      rw [(satisfied_openSession ..).2.2] at member
      cases member
  | release release => exact (List.mem_filter.mp member).1
  | operate | report | call | answer | skip | close => exact member
  | _ => cases member

theorem Step.kept (step : Step now p event q)
    (keeps : (⟨p, now, event, q⟩ : Stage).registers = false) (kept : Kept p) : Kept q := by
  by_cases next : event = .next
  · subst next
    exact step.kept_next
  · intro o member
    rw [(step.conditions keeps).1]
    exact kept o (step.observing next o member)

theorem Step.matchedIn (step : Step now p event q) (kept : Kept p)
    (reports : (⟨p, now, event, q⟩ : Stage).reports? id = some true) :
    (⟨p, now, event, q⟩ : Stage).MatchedIn p.circuit id := by
  cases step with
  | report observes report =>
      cases report with
      | matched =>
          obtain ⟨o, member, same⟩ := List.any_eq_true.mp observes
          simp only [decide_eq_true_eq] at same
          subst same
          have numbered : Condition.idOf o.index = id := by
            simpa [Stage.reports?] using reports
          exact ⟨o, member, rfl, numbered, kept o member⟩
      | unmatched => simp [Stage.reports?] at reports
  | operate progress operation => cases operation <;> simp [Stage.reports?] at reports
  | release release => cases release <;> simp [Stage.reports?] at reports
  | _ => simp [Stage.reports?] at reports

theorem Step.forgets (step : Step now p event q)
    (registers : (⟨p, now, event, q⟩ : Stage).registers = true) :
    q.circuit.satisfied = .empty := by
  cases step with
  | operate progress operation =>
      cases operation with
      | setConditions watchers =>
          obtain ⟨status, same⟩ := setConditions_eq _ watchers
          rw [same]
      | _ => simp [Stage.registers] at registers
  | report observes report => cases report <;> simp [Stage.registers] at registers
  | release release => cases release <;> simp [Stage.registers] at registers
  | _ => simp [Stage.registers] at registers

/-! ## What is satisfied after a course -/

theorem Course.watchers_since (course : Course .new stages p) :
    ∀ s ∈ since stages, s.before.circuit.watchers = p.circuit.watchers := by
  induction course with
  | refl => simp [since]
  | @step stages q r now event course taken ih =>
      intro s member
      rw [since_snoc] at member
      cases registers : (⟨q, now, event, r⟩ : Stage).registers with
      | true => simp [registers] at member
      | false =>
          rw [((step_of_step? taken).conditions registers).1]
          simp only [registers, Bool.false_eq_true, if_false, List.mem_append,
            List.mem_singleton] at member
          rcases member with earlier | rfl
          · exact ih s earlier
          · rfl

theorem Course.satisfied_iff (course : Course .new stages p) :
    id ∈ p.circuit.satisfied ↔ Standing id (since stages) := by
  induction course with
  | refl => exact iff_of_false (Condition.Satisfied.not_mem_empty id) not_standing_nil
  | @step stages q r now event course taken ih =>
      have step := step_of_step? taken
      rw [since_snoc]
      cases registers : (⟨q, now, event, r⟩ : Stage).registers with
      | true =>
          rw [if_pos rfl, step.forgets registers]
          exact iff_of_false (Condition.Satisfied.not_mem_empty id) not_standing_nil
      | false =>
          rw [if_neg Bool.false_ne_true, standing_snoc, (step.conditions registers).2]
          split
          · exact Iff.rfl
          · exact ih

theorem Course.kept_since (course : Course .new stages p) :
    ((∃ s ∈ since stages, s.event = .next) → Kept p) ∧
      (since stages).Pairwise fun t s => t.event = .next → Kept s.before := by
  induction course with
  | refl => simp [since]
  | @step stages q r now event course taken ih =>
      have step := step_of_step? taken
      rw [since_snoc]
      cases registers : (⟨q, now, event, r⟩ : Stage).registers with
      | true => simp
      | false =>
          rw [if_neg Bool.false_ne_true]
          constructor
          · rintro ⟨s, member, next⟩
            rcases List.mem_append.mp member with earlier | newest
            · exact step.kept registers (ih.1 ⟨s, earlier, next⟩)
            · rw [List.mem_singleton.mp newest] at next
              cases next
              exact step.kept_next
          · rw [List.pairwise_append]
            refine ⟨ih.2, List.pairwise_singleton _ _, ?_⟩
            intro t earlier s newest next
            rw [List.mem_singleton.mp newest]
            exact ih.1 ⟨t, earlier, next⟩

theorem Course.kept_of_quiet (course : Course .new stages p)
    (quiet : ∀ s ∈ stages, s.registers = true → s.before.observing = []) :
    Kept p ∧ ∀ s ∈ since stages, Kept s.before := by
  induction course with
  | refl => exact ⟨Process.kept_of_quiet rfl, by simp [since]⟩
  | @step stages q r now event course taken ih =>
      have step := step_of_step? taken
      obtain ⟨kept, passed⟩ := ih fun s member => quiet s (List.mem_append_left _ member)
      rw [since_snoc]
      cases registers : (⟨q, now, event, r⟩ : Stage).registers with
      | true =>
          -- Nothing is observed when the conditions are replaced, nor right after.
          have still := quiet _ (List.mem_append_right _ (List.mem_singleton_self _)) registers
          refine ⟨Process.kept_of_quiet ?_, by simp⟩
          apply List.eq_nil_iff_forall_not_mem.mpr
          intro o member
          have within : event ≠ .next := by
            rintro rfl
            simp [Stage.registers] at registers
          have before := step.observing within o member
          simp only at still
          rw [still] at before
          cases before
      | false =>
          refine ⟨step.kept registers kept, ?_⟩
          intro s member
          simp only [Bool.false_eq_true, if_false, List.mem_append, List.mem_singleton] at member
          rcases member with earlier | rfl
          · exact passed s earlier
          · exact kept

/-! ## What the registered conditions are worth -/

/-- What is satisfied was matched by the registered watchers since they are registered. So it lies among
their conditions, and all of these are satisfied exactly if the logic for that fires. -/
structure Current (stages : List Stage) (c : Circuit) : Prop where
  matched : ∀ id ∈ c.satisfied, ∃ s ∈ since stages, s.MatchedIn c id
  numbered : ∀ id ∈ c.satisfied, 1 ≤ id ∧ id ≤ c.watchers.length
  every : Condition.decideOutcome (some .every) c.satisfied c.watchers.length = .fire ↔
    ∀ id, 1 ≤ id → id ≤ c.watchers.length → id ∈ c.satisfied

theorem Stage.MatchedIn.numbered {s : Stage} (matched : s.MatchedIn c id) :
    1 ≤ id ∧ id ≤ c.watchers.length := by
  obtain ⟨o, -, -, rfl, found⟩ := matched
  obtain ⟨within, -⟩ := List.getElem?_eq_some_iff.mp found
  have positive : 1 ≤ Condition.idLimit := by decide
  simp only [Condition.idOf]
  omega

theorem current_of_matched (matched : ∀ id ∈ c.satisfied, ∃ s ∈ since stages, s.MatchedIn c id) :
    Current stages c := by
  have numbered : ∀ id ∈ c.satisfied, 1 ≤ id ∧ id ≤ c.watchers.length := by
    intro id satisfied
    obtain ⟨s, -, reported⟩ := matched id satisfied
    exact reported.numbered
  exact ⟨matched, numbered, Condition.every_fires_iff numbered⟩

theorem Course.matchedIn (course : Course .new stages p) {s : Stage} (member : s ∈ since stages)
    (kept : Kept s.before) (reports : s.reports? id = some true) : s.MatchedIn p.circuit id := by
  obtain ⟨o, observing, event, numbered, found⟩ :=
    (course.taken (mem_of_mem_since member)).matchedIn kept reports
  exact ⟨o, observing, event, numbered, course.watchers_since s member ▸ found⟩

/-- What is satisfied comes from the registered watchers exactly if each match that a replaced watcher
reports is taken back, or shared by the registered one. Such matches come from the cycle in which the
conditions were replaced only, and there are none if they are replaced while nothing is observed. -/
theorem current_iff (course : Course .new stages p) :
    (Current stages p.circuit ↔
      ∀ first s rest, since stages = first ++ s :: rest → ∀ id, s.reports? id = some true →
        ¬s.MatchedIn p.circuit id →
          (∃ t ∈ rest, t.reports? id = some false) ∨
            ∃ t ∈ since stages, t.MatchedIn p.circuit id) ∧
    ((since stages).Pairwise fun t s => t.event = .next →
      ∀ id, s.reports? id = some true → s.MatchedIn p.circuit id) ∧
    ((∀ s ∈ stages, s.registers = true → s.before.observing = []) →
      Current stages p.circuit) := by
  refine ⟨⟨?_, ?_⟩, ?_, ?_⟩
  · intro current first s rest same id reports _
    by_cases taken : ∃ t ∈ rest, t.reports? id = some false
    · exact .inl taken
    · have standing : Standing id (since stages) := by
        refine ⟨first, s, rest, same, reports, ?_⟩
        intro t member back
        exact taken ⟨t, member, back⟩
      exact .inr (current.matched id (course.satisfied_iff.mpr standing))
  · intro shared
    apply current_of_matched
    intro id satisfied
    obtain ⟨first, s, rest, same, reports, untaken⟩ := course.satisfied_iff.mp satisfied
    by_cases own : s.MatchedIn p.circuit id
    · exact ⟨s, by simp [same], own⟩
    · rcases shared first s rest same id reports own with ⟨t, member, back⟩ | found
      · exact absurd back (untaken t member)
      · exact found
  · apply course.kept_since.2.imp_of_mem
    intro t s _ member kept next id reports
    exact course.matchedIn member (kept next) reports
  · intro quiet
    apply current_of_matched
    intro id satisfied
    obtain ⟨first, s, rest, same, reports, -⟩ := course.satisfied_iff.mp satisfied
    have member : s ∈ since stages := by simp [same]
    exact ⟨s, member, course.matchedIn member ((course.kept_of_quiet quiet).2 s member) reports⟩

def sampleReplaced : List Event :=
  sampleStart ++
    [.next, .matched 0, .call, .settled 0 none, .answered (.ok .null), .close, .leave,
      .setConditions [⟨1, "window"⟩, ⟨2, "gate"⟩], .next, .matched 1]

theorem sampleReplaced_current :
    ∃ stages p, Course .new stages p ∧ p.circuit.satisfied.ids = [2] ∧
      Current stages p.circuit := by
  have followed : (sample sampleReplaced).any fun run =>
      run.2.circuit.satisfied.ids = [2] &&
        run.1.all fun s => !s.registers || s.before.observing = [] := by decide +kernel
  simp only [Option.any_eq_true, Bool.and_eq_true, decide_eq_true_eq, List.all_eq_true] at followed
  obtain ⟨⟨stages, p⟩, sampled, satisfied, quiet⟩ := followed
  have course := course_of_follow sampled
  obtain ⟨-, -, current⟩ := current_iff course
  refine ⟨stages, p, course, satisfied, ?_⟩
  apply current
  intro s member registers
  simpa [registers] using quiet s member

def sampleStale : List Event :=
  sampleStart ++
    [.setConditions [⟨0, "door"⟩, ⟨1, "window"⟩], .next, .setConditions [⟨2, "gate"⟩], .matched 1, .call]

theorem sampleStale_not_current :
    ∃ stages p, Course .new stages p ∧ p.circuit.watchers = [⟨2, "gate"⟩] ∧
      p.circuit.satisfied.ids = [2] ∧
      (¬∃ s ∈ since stages, s.MatchedIn p.circuit 2) ∧
      Condition.decideOutcome (p.circuit.logic?.map (·.policy)) p.circuit.satisfied
        p.circuit.watchers.length = .fire ∧
      1 ∉ p.circuit.satisfied ∧ p.circuit.counters.executed = 1 ∧ ¬Current stages p.circuit := by
  have followed : (sample sampleStale).any fun run =>
      run.2.circuit.watchers = [⟨2, "gate"⟩] && run.2.circuit.satisfied.ids = [2] &&
        run.2.circuit.outcome = .fire && run.2.circuit.counters.executed = 1 := by decide +kernel
  simp only [Option.any_eq_true, Bool.and_eq_true, decide_eq_true_eq] at followed
  obtain ⟨⟨stages, p⟩, sampled, ⟨⟨watchers, satisfied⟩, fires⟩, executed⟩ := followed
  simp only at watchers satisfied
  have absent : ¬(1 ≤ 2 ∧ 2 ≤ p.circuit.watchers.length) := by simp [watchers]
  refine ⟨stages, p, course_of_follow sampled, watchers, satisfied, ?_, fires, ?_, executed, ?_⟩
  · rintro ⟨s, -, matched⟩
    exact absent matched.numbered
  · simp [Condition.Satisfied.mem_def, satisfied]
  · intro current
    exact absent (current.numbered 2 (by simp [Condition.Satisfied.mem_def, satisfied]))

end Process
end Circuit
end Tripwire
