import Tripwire.Proofs.Circuit.Confluence

/-!
# Reports and policies

Between two registrations a circuit takes reports that conditions begin or cease to hold, and evaluates its logic. What
is satisfied then is decided by the last report on each condition. An evaluation only compares how many are satisfied;
since reports are on registered conditions, it tells whether every one of them is.
-/
namespace Tripwire

namespace Condition

variable {satisfied : Satisfied} {total value : Nat}

theorem Satisfied.le_size_iff : value ≤ satisfied.size ↔
    ∃ ids : List Nat, ids.Nodup ∧ ids.length = value ∧ ∀ id ∈ ids, id ∈ satisfied := by
  have distinct : satisfied.ids.Nodup := satisfied.ascending.imp Nat.ne_of_lt
  constructor
  · intro enough
    exact ⟨satisfied.ids.take value, distinct.sublist (List.take_sublist value _),
      List.length_take_of_le enough, fun id member => List.mem_of_mem_take member⟩
  · rintro ⟨ids, distinct, rfl, among⟩
    exact (List.subperm_of_subset distinct among).length_le

/-- What a policy asks of the conditions that hold, out of those numbered from one to a total. -/
def Policy.Asks (policy : Policy) (total : Nat) (holds : Nat → Prop) : Prop :=
  match policy with
  | .every => ∀ id, 1 ≤ id → id ≤ total → holds id
  | .threshold value => ∃ ids : List Nat, ids.Nodup ∧ ids.length = value ∧ ∀ id ∈ ids, holds id
  | .target id => holds id

theorem Policy.met_iff (policy : Policy) (numbered : ∀ id ∈ satisfied, 1 ≤ id ∧ id ≤ total) :
    policy.met satisfied total = true ↔ policy.Asks total (· ∈ satisfied) := by
  cases policy with
  | every => exact decide_eq_true_iff.trans (Satisfied.size_eq_iff numbered)
  | threshold value => exact decide_eq_true_iff.trans Satisfied.le_size_iff
  | target id => exact decide_eq_true_iff

end Condition

namespace Circuit

inductive Call where
  | recordMatch (now : Time.Instant) (id : Nat)
  | recordUnmatch (now : Time.Instant) (id : Nat)
  | evaluate (now : Time.Instant)

variable {c : Circuit} {call : Call} {calls : List Call} {id : Nat} {holds : Bool}

def Call.now : Call → Time.Instant
  | .recordMatch now _ | .recordUnmatch now _ | .evaluate now => now

def Call.reports? (call : Call) (id : Nat) : Option Bool :=
  match call with
  | .recordMatch _ reported => if reported = id then some true else none
  | .recordUnmatch _ reported => if reported = id then some false else none
  | .evaluate _ => none

def take (c : Circuit) : Call → Circuit
  | .recordMatch now id => c.recordMatch now id
  | .recordUnmatch now id => c.recordUnmatch now id
  | .evaluate now => (c.evaluate now).1

def noteOf (c : Circuit) : Call → Note
  | .recordMatch _ id => .matched id (c.satisfied.insert id).ids
  | .recordUnmatch _ id => .unmatched id (c.satisfied.erase id).ids
  | .evaluate _ => c.evaluation

theorem noteOf_category (c : Circuit) (call : Call) : (c.noteOf call).category = .condition := by
  cases call <;> rfl

theorem take_eq (c : Circuit) (call : Call) :
    c.take call = { c with
      satisfied := (c.take call).satisfied
      log := c.log.append ⟨c.noteOf call, call.now⟩ } := by
  cases call <;> rfl

theorem mem_take : id ∈ (c.take call).satisfied ↔
    match call.reports? id with
    | some holds => holds = true
    | none => id ∈ c.satisfied := by
  cases call with
  | recordMatch now reported =>
      by_cases same : reported = id
      · simp [take, recordMatch, write, Call.reports?, same]
      · simp [take, recordMatch, write, Call.reports?, same, Ne.symm same]
  | recordUnmatch now reported =>
      by_cases same : reported = id
      · simp [take, recordUnmatch, write, Call.reports?, same]
      · simp [take, recordUnmatch, write, Call.reports?, same, Ne.symm same]
  | evaluate now => exact Iff.rfl

def lastReport? (calls : List Call) (id : Nat) : Option Bool :=
  (calls.filterMap (·.reports? id)).getLast?

theorem lastReport?_snoc (calls : List Call) (call : Call) (id : Nat) :
    lastReport? (calls ++ [call]) id = (call.reports? id).or (lastReport? calls id) := by
  unfold lastReport?
  rw [List.filterMap_append, List.getLast?_append]
  cases reported : call.reports? id <;> simp [reported]

theorem exists_of_lastReport? (last : lastReport? calls id = some holds) :
    ∃ call ∈ calls, call.reports? id = some holds :=
  List.mem_filterMap.mp (List.mem_of_getLast? last)

theorem foldl_take (fresh : c.satisfied = .empty) (calls : List Call) :
    (∀ id, id ∈ (calls.foldl take c).satisfied ↔ lastReport? calls id = some true) ∧
      ∃ notes : List Noted, notes.map (·.timestamp) = calls.map Call.now ∧
        (∀ n ∈ notes, n.entry.category = .condition) ∧
        calls.foldl take c = { c with
          satisfied := (calls.foldl take c).satisfied
          log := notes.foldl Log.Ring.append c.log } := by
  induction calls using List.reverseRecOn with
  | nil => exact ⟨by simp [fresh, lastReport?], [], rfl, by simp, rfl⟩
  | append_singleton calls call ih =>
      obtain ⟨members, notes, times, categories, unchanged⟩ := ih
      rw [List.foldl_append, List.foldl_cons, List.foldl_nil]
      constructor
      · intro id
        rw [mem_take, lastReport?_snoc]
        cases call.reports? id with
        | none => exact members id
        | some holds => simp
      · refine ⟨notes ++ [⟨(calls.foldl take c).noteOf call, call.now⟩], ?_, ?_, ?_⟩
        · simp [times]
        · rw [List.forall_mem_append]
          refine ⟨categories, fun n member => ?_⟩
          rw [List.mem_singleton.mp member]
          exact noteOf_category _ call
        · have log : (calls.foldl take c).log = notes.foldl Log.Ring.append c.log := by rw [unchanged]
          rw [take_eq (calls.foldl take c) call, log, List.foldl_append]
          -- Both sides are `c` but for what is satisfied and the log.
          rw [unchanged]
          rfl

/-- A policy fires exactly if the last reports are what it asks for. Calls touch nothing but what is satisfied and the
log, in which each leaves one note on conditions, and evaluations touch only the log. -/
theorem last_reports_decide (calls : List Call) (fresh : c.satisfied = .empty)
    (within : ∀ call ∈ calls, ∀ id holds, call.reports? id = some holds → 1 ≤ id ∧ id ≤ c.watchers.length) :
    ∃ r, calls.foldl take c = r ∧
      (∀ id, id ∈ r.satisfied ↔ lastReport? calls id = some true) ∧
      (∀ now, (r.evaluate now).2 = .fire ↔ ∃ logic, c.logic? = some logic ∧
        logic.policy.Asks c.watchers.length fun id => lastReport? calls id = some true) ∧
      (∀ now, ∃ note : Note, note.category = .condition ∧
        (r.evaluate now).1 = { r with log := r.log.append ⟨note, now⟩ }) ∧
      ∃ notes : List Noted, notes.map (·.timestamp) = calls.map Call.now ∧
        (∀ n ∈ notes, n.entry.category = .condition) ∧
        r = { c with satisfied := r.satisfied, log := notes.foldl Log.Ring.append c.log } := by
  obtain ⟨members, notes, times, categories, unchanged⟩ := foldl_take fresh calls
  refine ⟨_, rfl, members, ?_, ?_, notes, times, categories, unchanged⟩
  · intro now
    have logic : (calls.foldl take c).logic? = c.logic? := by rw [unchanged]
    have watchers : (calls.foldl take c).watchers = c.watchers := by rw [unchanged]
    have numbered : ∀ id ∈ (calls.foldl take c).satisfied, 1 ≤ id ∧ id ≤ c.watchers.length := by
      intro id member
      obtain ⟨call, called, reported⟩ := exists_of_lastReport? ((members id).mp member)
      exact within call called id true reported
    have asked (policy : Condition.Policy) := policy.met_iff numbered
    simp only [members] at asked
    simp only [evaluate, Condition.decideOutcome_eq_fire_iff, logic, watchers, asked, Option.map_eq_some_iff,
      exists_exists_and_eq_and]
  · intro now
    exact ⟨_, noteOf_category (calls.foldl take c) (.evaluate now), rfl⟩

def sampleTwoWatched : Circuit :=
  (Circuit.new.setConditions [⟨0, "door"⟩, ⟨1, "window"⟩]).setLogic ⟨.every, none⟩

def sampleCalls : List Call :=
  [.recordUnmatch ⟨0, 0⟩ 2, .recordMatch ⟨1, 0⟩ 1, .evaluate ⟨1, 0⟩, .recordMatch ⟨2, 0⟩ 1, .recordMatch ⟨3, 0⟩ 2]

theorem sampleCalls_decide :
    sampleTwoWatched.satisfied = .empty ∧
      (∀ call ∈ sampleCalls, ∀ id holds, call.reports? id = some holds →
        1 ≤ id ∧ id ≤ sampleTwoWatched.watchers.length) ∧
      ∃ r, sampleCalls.foldl take sampleTwoWatched = r ∧ 1 ∈ r.satisfied ∧
        (r.evaluate ⟨4, 0⟩).2 = .fire := by
  have watched : sampleTwoWatched.watchers.length = 2 := rfl
  have within : ∀ call ∈ sampleCalls, ∀ id holds, call.reports? id = some holds →
      1 ≤ id ∧ id ≤ sampleTwoWatched.watchers.length := by
    simp only [sampleCalls, List.forall_mem_cons, Call.reports?, Option.ite_none_right_eq_some, watched]
    refine ⟨?_, ?_, by simp, ?_, ?_, by simp⟩ <;> rintro id holds ⟨rfl, -⟩ <;> decide
  obtain ⟨r, after, members, fires, -⟩ :=
    last_reports_decide (c := sampleTwoWatched) sampleCalls rfl within
  refine ⟨rfl, within, r, after, (members 1).mpr rfl, (fires _).mpr ⟨⟨.every, none⟩, rfl, ?_⟩⟩
  intro id positive most
  obtain rfl | rfl : id = 1 ∨ id = 2 := by omega
  · rfl
  · rfl

end Circuit

end Tripwire
