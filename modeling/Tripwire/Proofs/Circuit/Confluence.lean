import Tripwire.Proofs.Circuit.Provenance
import Tripwire.Proofs.Circuit.SingleFlight

/-!
# The order of reports

What is satisfied at the end of a cycle is decided by the last report on each condition, so it does not
depend on how the reports of different watchers follow one another. While no condition ceases to hold,
what is satisfied only grows, and a logic that fires goes on to fire. So whether such a cycle has a run
does not depend on the order either.
-/
namespace Tripwire

namespace Condition

variable {small large : Satisfied} {policy? : Option Policy} {total id index : Nat}

theorem Satisfied.eq_of_mem_iff (same : ∀ id, id ∈ small ↔ id ∈ large) : small = large := by
  obtain ⟨ids, ascending⟩ := small
  obtain ⟨ids', ascending'⟩ := large
  have perm : ids.Perm ids' :=
    (List.perm_ext_iff_of_nodup (ascending.imp Nat.ne_of_lt) (ascending'.imp Nat.ne_of_lt)).mpr same
  have equal : ids = ids' := perm.eq_of_pairwise (fun _ _ _ _ lt gt => by omega) ascending ascending'
  simp only [equal]

theorem Satisfied.size_mono (sub : ∀ id ∈ small, id ∈ large) : small.size ≤ large.size :=
  (List.subperm_of_subset (small.ascending.imp Nat.ne_of_lt) sub).length_le

theorem decideOutcome_eq_fire_iff {satisfied : Satisfied} :
    decideOutcome policy? satisfied total = .fire ↔
      ∃ policy, policy? = some policy ∧ policy.met satisfied total = true := by
  cases policy? <;> simp [decideOutcome]

theorem decideOutcome_mono (sub : ∀ id ∈ small, id ∈ large)
    (numbered : ∀ id ∈ large, 1 ≤ id ∧ id ≤ total)
    (fires : decideOutcome policy? small total = .fire) :
    decideOutcome policy? large total = .fire := by
  rw [decideOutcome_eq_fire_iff] at fires ⊢
  obtain ⟨policy, given, met⟩ := fires
  refine ⟨policy, given, ?_⟩
  cases policy with
  | every =>
      simp only [Policy.met, decide_eq_true_eq] at met ⊢
      -- As many as there are conditions are all of them only if none is beyond their number.
      rw [Satisfied.size_eq_iff fun id member => numbered id (sub id member)] at met
      rw [Satisfied.size_eq_iff numbered]
      exact fun id positive most => sub id (met id positive most)
  | threshold value =>
      simp only [Policy.met, decide_eq_true_eq] at met ⊢
      exact Nat.le_trans met (Satisfied.size_mono sub)
  | target id =>
      simp only [Policy.met, decide_eq_true_eq] at met ⊢
      exact sub id met

theorem numbered_of_mem_idsOf (member : id ∈ idsOf total) : 1 ≤ id ∧ id ≤ total := by
  obtain ⟨index, within, rfl⟩ := List.mem_map.mp member
  have below := List.mem_range.mp within
  have positive : 1 ≤ idLimit := by decide
  simp only [idOf]
  omega

theorem idOf_inj {other : Nat} (same : idOf index = idOf other)
    (own : idOf index ≠ idLimit ∨ index < idLimit ∧ other < idLimit) : index = other := by
  simp only [idOf] at same own
  omega

end Condition

namespace Circuit.Process

variable {p q r : Process} {now : Time.Instant} {event : Event} {stages stages' : List Stage} {id : Nat}

/-! ## Reports by their watchers -/

def Stage.callback? (s : Stage) : Option (Nat × Bool) :=
  match s.event with
  | .matched index => some (index, true)
  | .unmatched index => some (index, false)
  | _ => none

def callbacks (stages : List Stage) : List (Nat × Bool) := stages.filterMap Stage.callback?

def reportsOn (id : Nat) (told : List (Nat × Bool)) : List Bool :=
  (told.filter fun t => Condition.idOf t.1 = id).map (·.2)

theorem Stage.reports?_eq (s : Stage) (id : Nat) : s.reports? id =
    s.callback?.bind fun t => if Condition.idOf t.1 = id then some t.2 else none := by
  obtain ⟨_, _, event, _⟩ := s
  cases event <;> rfl

theorem reportsOn_snoc (id : Nat) (stages : List Stage) (s : Stage) :
    reportsOn id (callbacks (stages ++ [s])) =
      reportsOn id (callbacks stages) ++ (s.reports? id).toList := by
  rw [Stage.reports?_eq, callbacks, List.filterMap_append, ← callbacks, List.filterMap_cons,
    List.filterMap_nil]
  cases s.callback? with
  | none => simp
  | some t => by_cases numbered : Condition.idOf t.1 = id <;> simp [reportsOn, numbered]

theorem Step.observed {told : Nat × Bool} (step : Step now p event q)
    (reports : (⟨p, now, event, q⟩ : Stage).callback? = some told) :
    ∃ o ∈ p.observing, o.index = told.1 := by
  cases step with
  | report observes report =>
      obtain ⟨o, member, same⟩ := List.any_eq_true.mp observes
      refine ⟨o, member, ?_⟩
      cases report <;> cases reports <;> exact of_decide_eq_true same
  | operate progress operation => cases operation <;> cases reports
  | release release => cases release <;> cases reports
  | _ => cases reports

theorem Step.callback_lt {told : Nat × Bool} (step : Step now p event q) (kept : Kept p)
    (reports : (⟨p, now, event, q⟩ : Stage).callback? = some told) :
    told.1 < p.circuit.watchers.length := by
  obtain ⟨o, member, same⟩ := step.observed reports
  obtain ⟨within, -⟩ := List.getElem?_eq_some_iff.mp (kept o member)
  exact same ▸ within

theorem Course.watchers (course : Course p stages q) (unset : ∀ s ∈ stages, s.registers = false) :
    q.circuit.watchers = p.circuit.watchers := by
  induction course with
  | refl => rfl
  | step course taken ih =>
      obtain ⟨unset, keeps⟩ := List.forall_mem_append.mp unset
      have newest := keeps _ (List.mem_singleton_self _)
      exact ((step_of_step? taken).conditions newest).1.trans (ih unset)

theorem Course.watched (course : Course p stages q) (kept : Kept p)
    (unset : ∀ s ∈ stages, s.registers = false) :
    Kept q ∧ q.circuit.watchers = p.circuit.watchers ∧
      ∀ told ∈ callbacks stages, told.1 < p.circuit.watchers.length := by
  induction course with
  | refl => exact ⟨kept, rfl, by simp [callbacks]⟩
  | @step stages q r now event course taken ih =>
      have watchers := (course.step taken).watchers unset
      obtain ⟨unset, keeps⟩ := List.forall_mem_append.mp unset
      obtain ⟨kept, same, within⟩ := ih unset
      have step := step_of_step? taken
      refine ⟨step.kept (keeps _ (List.mem_singleton_self _)) kept, watchers, ?_⟩
      intro told member
      rw [callbacks, List.filterMap_append, List.mem_append] at member
      rcases member with earlier | newest
      · exact within told earlier
      · obtain ⟨s, only, reports⟩ := List.mem_filterMap.mp newest
        rw [List.mem_singleton.mp only] at reports
        exact same ▸ step.callback_lt kept reports

theorem Course.satisfied_iff_reportsOn (course : Course p stages q)
    (unset : ∀ s ∈ stages, s.registers = false) :
    id ∈ q.circuit.satisfied ↔
      match (reportsOn id (callbacks stages)).getLast? with
      | some holds => holds = true
      | none => id ∈ p.circuit.satisfied := by
  induction course with
  | refl => exact Iff.rfl
  | @step stages q r now event course taken ih =>
      have unset := List.forall_mem_append.mp unset
      have keeps := unset.2 _ (List.mem_singleton_self _)
      rw [((step_of_step? taken).conditions keeps).2, reportsOn_snoc, List.getLast?_append]
      cases (⟨q, now, event, r⟩ : Stage).reports? id with
      | none => exact ih unset.1
      | some holds => exact Iff.rfl

/-! ## Interleavings -/

/-- The same reports, each watcher's in its own order. -/
def Interleaves (told told' : List (Nat × Bool)) : Prop :=
  ∀ index, told.filter (·.1 = index) = told'.filter (·.1 = index)

theorem Interleaves.mem_iff {told told' : List (Nat × Bool)} (interleaves : Interleaves told told')
    (t : Nat × Bool) : t ∈ told ↔ t ∈ told' := by
  have same : t ∈ told.filter (·.1 = t.1) ↔ t ∈ told'.filter (·.1 = t.1) := by
    rw [interleaves t.1]
  simpa using same

theorem Interleaves.reportsOn_eq {told told' : List (Nat × Bool)}
    (interleaves : Interleaves told told')
    (own : id ≠ Condition.idLimit ∨ ∀ t ∈ told, t.1 < Condition.idLimit) :
    reportsOn id told = reportsOn id told' := by
  have among : ∀ t ∈ told', t ∈ told := fun t => (interleaves.mem_iff t).mpr
  by_cases reported : ∃ t ∈ told, Condition.idOf t.1 = id
  · obtain ⟨t, member, rfl⟩ := reported
    have sole : ∀ u ∈ told, Condition.idOf u.1 = Condition.idOf t.1 ↔ u.1 = t.1 := by
      intro u member'
      refine ⟨fun same => Condition.idOf_inj same ?_, fun same => by rw [same]⟩
      exact own.imp (fun apart => same ▸ apart) fun within => ⟨within u member', within t member⟩
    have narrow : ∀ list : List (Nat × Bool), (∀ u ∈ list, u ∈ told) →
        list.filter (fun u => Condition.idOf u.1 = Condition.idOf t.1) =
          list.filter (fun u => u.1 = t.1) := by
      intro list sub
      exact List.filter_congr fun u member' => decide_eq_decide.mpr (sole u (sub u member'))
    rw [reportsOn, reportsOn, narrow told fun _ => id, narrow told' among, interleaves t.1]
  · have silent : ∀ list : List (Nat × Bool), (∀ u ∈ list, u ∈ told) →
        reportsOn id list = [] := by
      intro list sub
      rw [reportsOn, List.map_eq_nil_iff, List.filter_eq_nil_iff]
      exact fun u member' numbered => reported ⟨u, sub u member', of_decide_eq_true numbered⟩
    rw [silent told fun _ member => member, silent told' among]

theorem Course.satisfied_congr (course : Course p stages q) (course' : Course p stages' r)
    (kept : Kept p) (unset : ∀ s ∈ stages, s.registers = false)
    (unset' : ∀ s ∈ stages', s.registers = false)
    (interleaves : Interleaves (callbacks stages) (callbacks stages'))
    (own : id ≠ Condition.idLimit ∨ p.circuit.watchers.length ≤ Condition.idLimit) :
    id ∈ q.circuit.satisfied ↔ id ∈ r.circuit.satisfied := by
  have within := (course.watched kept unset).2.2
  have same : reportsOn id (callbacks stages) = reportsOn id (callbacks stages') :=
    interleaves.reportsOn_eq <| own.imp_right fun few t member =>
      Nat.lt_of_lt_of_le (within t member) few
  rw [course.satisfied_iff_reportsOn unset, course'.satisfied_iff_reportsOn unset', same]

/-! ## Cycles in which no condition ceases to hold -/

def Stage.steady (s : Stage) : Bool :=
  match s.event with
  | .setConditions _ | .setLogic _ | .unmatched _ => false
  | _ => true

theorem Stage.steady_registers {s : Stage} (steady : s.steady = true) : s.registers = false := by
  obtain ⟨_, _, event, _⟩ := s
  cases event <;> first | rfl | cases steady

theorem Stage.steady_callback? {s : Stage} {t : Nat × Bool} (steady : s.steady = true)
    (told : s.callback? = some t) : t.2 = true := by
  obtain ⟨_, _, event, _⟩ := s
  cases event with
  | matched index => cases told; rfl
  | unmatched index => cases steady
  | _ => cases told

theorem Stage.steady_reports? {s : Stage} (steady : s.steady = true) (id : Nat) :
    s.reports? id ≠ some false := by
  intro reports
  rw [Stage.reports?_eq, Option.bind_eq_some_iff] at reports
  obtain ⟨t, told, ceases⟩ := reports
  rw [Option.ite_none_right_eq_some, Stage.steady_callback? steady told] at ceases
  cases ceases.2

theorem Course.satisfied_iff_callbacks (course : Course p stages q)
    (steady : ∀ s ∈ stages, s.steady = true) :
    id ∈ q.circuit.satisfied ↔
      (∃ t ∈ callbacks stages, Condition.idOf t.1 = id) ∨ id ∈ p.circuit.satisfied := by
  rw [course.satisfied_iff_reportsOn fun s member => Stage.steady_registers (steady s member)]
  cases last : (reportsOn id (callbacks stages)).getLast? with
  | none =>
      rw [List.getLast?_eq_none_iff, reportsOn, List.map_eq_nil_iff, List.filter_eq_nil_iff] at last
      simp only [decide_eq_true_eq] at last
      refine ⟨.inr, fun either => either.resolve_left ?_⟩
      rintro ⟨t, member, numbered⟩
      exact last t member numbered
  | some holds =>
      obtain ⟨t, reported, same⟩ := List.mem_map.mp (List.mem_of_getLast? last)
      obtain ⟨member, numbered⟩ := List.mem_filter.mp reported
      obtain ⟨s, taken, told⟩ := List.mem_filterMap.mp member
      have begins := Stage.steady_callback? (steady s taken) told
      exact iff_of_true (same ▸ begins) (.inl ⟨t, member, of_decide_eq_true numbered⟩)

theorem Operation.logic {c c' : Circuit} (operation : Operation now c event c')
    (kept : ∀ logic, event ≠ .setLogic logic) : c'.logic? = c.logic? := by
  cases operation with
  | setConditions watchers =>
      obtain ⟨status, same⟩ := setConditions_eq c watchers
      rw [same]
  | setLogic logic => exact absurd rfl (kept logic)
  | setActions actions =>
      obtain ⟨script, log, status, same⟩ := setActions_eq c now actions
      rw [same]
  | _ => rfl

theorem Step.logic (step : Step now p event q) (kept : ∀ logic, event ≠ .setLogic logic) :
    q.circuit.logic? = p.circuit.logic? := by
  cases step with
  | operate progress operation => exact Operation.logic operation kept
  | forgo progress options begun =>
      obtain ⟨-, -, log, rfl⟩ := begin_over begun
      rfl
  | request progress begun keyless =>
      obtain ⟨-, -, -, rfl⟩ := begin_running begun
      rfl
  | @enter c _ options key progress begun keyed =>
      obtain ⟨-, -, -, rfl⟩ := begin_running begun
      obtain ⟨log, session?, status, same⟩ :=
        openSession_frame { c with status := .running } now options key
      rw [same]
  | @issue c contentHash options identity =>
      obtain ⟨log, session?, status, same⟩ :=
        openSession_frame (c.write now (.identityIssued identity)) now options identity.publicKey
      rw [same]
      rfl
  | report observes report => cases report <;> rfl
  | release release => cases release <;> rfl
  | @answer c cycle contentHash flying answer =>
      cases answer with
      | ok response =>
          obtain ⟨log, finished⟩ := finishRun_ok c now contentHash response
          rw [finished]
      | error failure => rfl
  | _ => rfl

theorem Course.logic (course : Course p stages q) (steady : ∀ s ∈ stages, s.steady = true) :
    q.circuit.logic? = p.circuit.logic? := by
  induction course with
  | refl => rfl
  | @step stages q r now event course taken ih =>
      obtain ⟨earlier, newest⟩ := List.forall_mem_append.mp steady
      rw [(step_of_step? taken).logic, ih earlier]
      rintro logic rfl
      cases newest _ (List.mem_singleton_self _)

theorem Step.outcome_of_fires (step : Step now p event q)
    (fires : (⟨p, now, event, q⟩ : Stage).fires = true) : q.circuit.outcome = .fire := by
  cases step with
  | operate progress operation => cases operation <;> cases fires
  | report observes report => cases report <;> exact Circuit.fires_iff.mp fires
  | release release => cases release <;> cases fires
  | skip settled drained unclosed stopped =>
      simp [Stage.fires, Stage.evaluates?, stopped] at fires
  | close settled drained unclosed going =>
      simp only [Stage.fires, Stage.evaluates?, going, Bool.false_eq_true, if_false,
        Option.any_some] at fires
      exact Circuit.fires_iff.mp fires
  | _ => cases fires

def Settled (p : Process) : Prop := p.closed = true → p.observing = []

theorem Step.settled (step : Step now p event q) (settled : Settled p) : Settled q := by
  intro closed
  cases step with
  | operate progress operation => exact settled closed
  | begin pause? going => cases closed
  | report observes report =>
      have none := settled closed
      simp only [Process.observing] at none
      simp [Cycle.observes, none] at observes
  | release release =>
      have none := settled closed
      simp only [Process.observing] at none ⊢
      simp [Cycle.drop, none]
  | call | answer => exact settled closed
  | skip none | close none => exact none
  | enter | issue => exact (satisfied_openSession ..).2.2
  | _ => rfl

/-- What holds of a cycle in which no condition ceases to hold: what fired once fires still, and when the
cycle is closed it has fired if it does so now. -/
structure Rising (stages : List Stage) (q : Process) : Prop where
  kept : Kept q
  numbered : ∀ id ∈ q.circuit.satisfied, 1 ≤ id ∧ id ≤ q.circuit.watchers.length
  settled : Settled q
  fires : stages.any Stage.fires = true → q.circuit.outcome = .fire
  closed : q.closed = true → q.circuit.outcome = .fire → stages.any Stage.fires = true

theorem rising_begin {o : Process} (begun : Step now o .next p) (cycling : p.Cycling)
    (numbered : ∀ id ∈ p.circuit.satisfied, 1 ≤ id ∧ id ≤ p.circuit.watchers.length) :
    Rising [] p := by
  have unclosed := (cycleTally_begin begun cycling).closed
  have unclosed : p.closed = false := Bool.toNat_eq_zero.mp unclosed.symm
  exact ⟨begun.kept_next, numbered, by simp [Settled, unclosed], by simp, by simp [unclosed]⟩

theorem Rising.step (rising : Rising stages p) (coherent : Coherent p) (cycling : p.Cycling)
    (step : Step now p event q) (steady : (⟨p, now, event, q⟩ : Stage).steady = true)
    (going : event = .close → p.circuit.stopped = false) :
    Rising (stages ++ [⟨p, now, event, q⟩]) q := by
  have keeps := Stage.steady_registers steady
  obtain ⟨watchers, satisfied⟩ := step.conditions keeps
  have logic : q.circuit.logic? = p.circuit.logic? := by
    apply step.logic
    rintro logic rfl
    cases steady
  have grows : ∀ id ∈ p.circuit.satisfied, id ∈ q.circuit.satisfied := by
    intro id member
    rw [satisfied id]
    split
    · rename_i holds reports
      cases holds with
      | true => rfl
      | false => exact absurd reports (Stage.steady_reports? steady id)
    · exact member
  have numbered : ∀ id ∈ q.circuit.satisfied, 1 ≤ id ∧ id ≤ q.circuit.watchers.length := by
    intro id member
    rw [watchers]
    cases reports : (⟨p, now, event, q⟩ : Stage).reports? id with
    | none => exact rising.numbered id (by simpa [reports] using (satisfied id).mp member)
    | some holds =>
        cases holds with
        | true => exact (step.matchedIn rising.kept reports).numbered
        | false => exact absurd reports (Stage.steady_reports? steady id)
  have rises (fire : p.circuit.outcome = .fire) : q.circuit.outcome = .fire := by
    rw [Circuit.outcome, logic]
    exact Condition.decideOutcome_mono grows numbered (watchers ▸ fire)
  refine ⟨step.kept keeps rising.kept, numbered, step.settled rising.settled, ?_, ?_⟩
  · rw [List.any_append, Bool.or_eq_true]
    rintro (earlier | newest)
    · exact rises (rising.fires earlier)
    · rw [List.any_cons, List.any_nil, Bool.or_false] at newest
      exact step.outcome_of_fires newest
  · intro closed fire
    -- A closed cycle reports nothing more, and what closes it evaluates the logic itself.
    have before (quiet : ∀ id, (⟨p, now, event, q⟩ : Stage).reports? id = none) :
        p.circuit.outcome = .fire := by
      have unchanged : q.circuit.satisfied = p.circuit.satisfied :=
        Condition.Satisfied.eq_of_mem_iff fun id => by rw [satisfied id, quiet id]
      rwa [Circuit.outcome, logic, watchers, unchanged] at fire
    rw [List.any_append, Bool.or_eq_true]
    have closes := step.closed coherent cycling
    cases already : p.closed with
    | true =>
        have still := rising.settled already
        refine .inl (rising.closed already (before fun id => ?_))
        cases reports : (⟨p, now, event, q⟩ : Stage).reports? id with
        | none => rfl
        | some holds =>
            cases holds with
            | true =>
                obtain ⟨o, member, -⟩ := step.matchedIn rising.kept reports
                simp only [still] at member
                cases member
            | false => exact absurd reports (Stage.steady_reports? steady id)
    | false =>
        rw [closed, already] at closes
        obtain rfl : event = .close := by
          cases event <;> first | rfl | cases closes
        have fire := before fun _ => rfl
        simp [Stage.fires, Stage.evaluates?, going rfl, Circuit.fires, fire]

theorem Coherent.rising {o : Process} (begins : Coherent o) (begun : o.step? now .next = some p)
    (cycling : p.Cycling) (cycle : Course p stages q) (within : ∀ s ∈ stages, s.before.Cycling)
    (registered : ∀ id ∈ p.circuit.satisfied, id ∈ p.circuit.conditionIds)
    (steady : ∀ s ∈ stages, s.steady = true)
    (going : ∀ s ∈ stages, s.event = .close → s.before.circuit.stopped = false) :
    Rising stages q := by
  induction cycle with
  | refl =>
      exact rising_begin (step_of_step? begun) cycling fun id member =>
        Condition.numbered_of_mem_idsOf (registered id member)
  | step cycle taken ih =>
      obtain ⟨within, here⟩ := List.forall_mem_append.mp within
      obtain ⟨steady, calm⟩ := List.forall_mem_append.mp steady
      obtain ⟨going, open_⟩ := List.forall_mem_append.mp going
      have coherent := (begins.cycleTally begun cycling cycle within).1
      have newest {s : Stage} : s ∈ [s] := List.mem_singleton_self s
      exact (ih within steady going).step coherent (here _ newest) (step_of_step? taken)
        (calm _ newest) (open_ _ newest)

theorem Coherent.any_claims {o : Process} (begins : Coherent o)
    (begun : o.step? now .next = some p) (cycling : p.Cycling) (cycle : Course p stages q)
    (within : ∀ s ∈ stages, s.before.Cycling) :
    stages.any Stage.claims = stages.any Stage.fires := by
  induction cycle with
  | refl => rfl
  | @step stages q r now event cycle taken ih =>
      obtain ⟨within, here⟩ := List.forall_mem_append.mp within
      have tally := (begins.cycleTally begun cycling cycle within).2
      have fired := tally.fired (here _ (List.mem_singleton_self _))
      simp only [List.any_append, List.any_cons, List.any_nil, Bool.or_false, ih within,
        Stage.claims_eq, fired]
      cases stages.any Stage.fires <;> simp

/-! ## Confluence -/

structure Passes (p : Process) (stages : List Stage) (q : Process) : Prop where
  course : Course p stages q
  within : ∀ s ∈ stages, s.before.Cycling
  unset : ∀ s ∈ stages, s.registers = false
  left : ¬q.Cycling

theorem Passes.claims_iff {o : Process} (passes : Passes p stages q) (begins : Coherent o)
    (begun : o.step? now .next = some p) (cycling : p.Cycling)
    (registered : ∀ id ∈ p.circuit.satisfied, id ∈ p.circuit.conditionIds)
    (steady : ∀ s ∈ stages, s.steady = true)
    (going : ∀ s ∈ stages, s.event = .close → s.before.circuit.stopped = false) :
    (∃ s ∈ stages, s.claims = true) ↔ q.circuit.outcome = .fire := by
  have rising :=
    begins.rising begun cycling passes.course passes.within registered steady going
  have closed : q.closed = true := by
    unfold Process.closed
    split
    · rename_i cycle cycling
      exact absurd ⟨cycle, cycling⟩ passes.left
    · rfl
  rw [← List.any_eq_true, begins.any_claims begun cycling passes.course passes.within]
  exact ⟨rising.fires, rising.closed closed⟩

/-- The order in which different watchers report does not matter. The same is satisfied at the end of the
cycle, the last number apart if there are so many conditions that several have it. If no condition ceases
to hold and the circuit is not to stop when the cycle is closed, then the same is satisfied in any case,
and the cycle claims its run exactly if the logic fires for what is satisfied in the end. -/
theorem reports_are_confluent {o : Process} (begins : Coherent o)
    (begun : o.step? now .next = some p) (cycling : p.Cycling) (passes : Passes p stages q)
    (passes' : Passes p stages' r)
    (interleaves : Interleaves (callbacks stages) (callbacks stages')) :
    (p.circuit.watchers.length ≤ Condition.idLimit → q.circuit.satisfied = r.circuit.satisfied) ∧
    (∀ id, id ≠ Condition.idLimit → (id ∈ q.circuit.satisfied ↔ id ∈ r.circuit.satisfied)) ∧
    ((∀ id ∈ p.circuit.satisfied, id ∈ p.circuit.conditionIds) →
      (∀ s ∈ stages ++ stages', s.steady = true) →
      (∀ s ∈ stages ++ stages', s.event = .close → s.before.circuit.stopped = false) →
      q.circuit.satisfied = r.circuit.satisfied ∧ q.circuit.outcome = r.circuit.outcome ∧
        ((∃ s ∈ stages, s.claims = true) ↔ q.circuit.outcome = .fire) ∧
        ((∃ s ∈ stages', s.claims = true) ↔ r.circuit.outcome = .fire)) := by
  have kept := (step_of_step? begun).kept_next
  have agree (id : Nat)
      (own : id ≠ Condition.idLimit ∨ p.circuit.watchers.length ≤ Condition.idLimit) :
      id ∈ q.circuit.satisfied ↔ id ∈ r.circuit.satisfied :=
    passes.course.satisfied_congr passes'.course kept passes.unset passes'.unset interleaves own
  refine ⟨?_, fun id apart => agree id (.inl apart), ?_⟩
  · exact fun few => Condition.Satisfied.eq_of_mem_iff fun id => agree id (.inr few)
  · intro registered steady going
    obtain ⟨steady, steady'⟩ := List.forall_mem_append.mp steady
    obtain ⟨going, going'⟩ := List.forall_mem_append.mp going
    have satisfied : q.circuit.satisfied = r.circuit.satisfied := by
      apply Condition.Satisfied.eq_of_mem_iff
      intro id
      rw [passes.course.satisfied_iff_callbacks steady,
        passes'.course.satisfied_iff_callbacks steady']
      simp only [interleaves.mem_iff]
    have logic : q.circuit.logic? = r.circuit.logic? :=
      (passes.course.logic steady).trans (passes'.course.logic steady').symm
    have watchers : q.circuit.watchers = r.circuit.watchers :=
      (passes.course.watched kept passes.unset).2.1.trans
        (passes'.course.watched kept passes'.unset).2.1.symm
    refine ⟨satisfied, ?_, passes.claims_iff begins begun cycling registered steady going,
      passes'.claims_iff begins begun cycling registered steady' going'⟩
    rw [Circuit.outcome, satisfied, logic, watchers]
    rfl

def sampleTwo : List Event :=
  sampleStart ++ [.setConditions [⟨0, "door"⟩, ⟨1, "window"⟩]]

def sampleReports (reports : List Event) : List Event :=
  reports ++ [.call, .settled 0 none, .settled 1 none, .answered (.ok .null), .close, .leave]

theorem interleaves_of_apart {first second : Nat × Bool} (apart : first.1 ≠ second.1) :
    Interleaves [first, second] [second, first] := by
  intro index
  by_cases left : first.1 = index <;> by_cases right : second.1 = index <;> simp_all

def Stage.undisturbed (s : Stage) : Bool :=
  s.before.Cycling && s.steady && !s.before.circuit.stopped

theorem passes_of_follow {events : List (Time.Instant × Event)}
    (followed : p.follow events = some (stages, q))
    (undisturbed : stages.all Stage.undisturbed = true) (left : ¬q.Cycling) :
    Passes p stages q ∧ (∀ s ∈ stages, s.steady = true) ∧
      ∀ s ∈ stages, s.event = .close → s.before.circuit.stopped = false := by
  simp only [List.all_eq_true, Stage.undisturbed, Bool.and_eq_true, decide_eq_true_eq,
    Bool.not_eq_true'] at undisturbed
  have steady : ∀ s ∈ stages, s.steady = true := fun s member => (undisturbed s member).1.2
  exact ⟨⟨course_of_follow followed, fun s member => (undisturbed s member).1.1,
    fun s member => Stage.steady_registers (steady s member), left⟩, steady,
    fun s member _ => (undisturbed s member).2⟩

theorem sampleReports_are_confluent :
    ∃ o p stages q stages' r, Coherent o ∧ o.step? ⟨0, 0⟩ .next = some p ∧ Passes p stages q ∧
      Passes p stages' r ∧ callbacks stages = [(0, true), (1, true)] ∧
      callbacks stages' = [(1, true), (0, true)] ∧ q.circuit.satisfied = r.circuit.satisfied ∧
      (∃ s ∈ stages, s.claims = true) ∧ ∃ s ∈ stages', s.claims = true := by
  have followed : (sample sampleTwo).any fun start =>
      (start.2.step? ⟨0, 0⟩ .next).any fun p => p.Cycling && p.circuit.satisfied.ids = [] &&
        ((p.follow ((sampleReports [.matched 0, .matched 1]).map (⟨0, 0⟩, ·))).any fun run =>
          run.1.all Stage.undisturbed && ¬run.2.Cycling &&
            callbacks run.1 = [(0, true), (1, true)] && run.2.circuit.outcome = .fire) &&
        ((p.follow ((sampleReports [.matched 1, .matched 0]).map (⟨0, 0⟩, ·))).any fun run =>
          run.1.all Stage.undisturbed && ¬run.2.Cycling &&
            callbacks run.1 = [(1, true), (0, true)]) := by decide +kernel
  simp only [Option.any_eq_true, Bool.and_eq_true, decide_eq_true_eq] at followed
  obtain ⟨⟨earlier, o⟩, started, p, begun, ⟨⟨cycling, unsatisfied⟩,
    ⟨stages, q⟩, run, ⟨⟨undisturbed, left⟩, told⟩, fire⟩,
    ⟨stages', r⟩, run', ⟨undisturbed', left'⟩, told'⟩ := followed
  have begins := (course_of_follow started).coherent.1
  obtain ⟨passes, steady, going⟩ := passes_of_follow run undisturbed left
  obtain ⟨passes', steady', going'⟩ := passes_of_follow run' undisturbed' left'
  have interleaves : Interleaves (callbacks stages) (callbacks stages') := by
    simp only at told told'
    rw [told, told']
    exact interleaves_of_apart Nat.zero_ne_one
  obtain ⟨-, -, confluent⟩ := reports_are_confluent begins begun cycling passes passes' interleaves
  obtain ⟨satisfied, outcome, claims, claims'⟩ :=
    confluent (by simp [Condition.Satisfied.mem_def, unsatisfied])
      (List.forall_mem_append.mpr ⟨steady, steady'⟩) (List.forall_mem_append.mpr ⟨going, going'⟩)
  exact ⟨o, p, stages, q, stages', r, begins, begun, passes, passes', told, told', satisfied,
    claims.mpr fire, claims'.mpr (outcome ▸ fire)⟩

end Circuit.Process
end Tripwire
