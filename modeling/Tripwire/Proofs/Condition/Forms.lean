import Tripwire.Condition.Logic
import Tripwire.Proofs.Value.Members

/-!
# Logics and their forms

A form has fields for every kind of policy. It is read as a logic if it has what its own kind needs, and the
others are dropped. A logic is read back from its form but for the parts of a millisecond in its interval, and
for what does not fit into 64 bits.
-/
namespace Tripwire.Condition

variable {form : LogicForm} {logic : Logic} {policy : Policy} {fault : Fault} {style : Form.Style}

namespace LogicForm

inductive States (form : LogicForm) : Policy → Prop where
  | every (kind : form.kind = .every) : States form .every
  | threshold {value : Nat} (kind : form.kind = .threshold) (given : form.value? = some value) :
      States form (.threshold value)
  | target {id : Nat} (kind : form.kind = .target) (given : form.target? = some id) :
      States form (.target id)

inductive Lacks (form : LogicForm) : String → Prop where
  | value (kind : form.kind = .threshold) (missing : form.value? = none) : Lacks form "value"
  | target (kind : form.kind = .target) (missing : form.target? = none) : Lacks form "target_condition"

def own (form : LogicForm) : LogicForm :=
  { form with
    value? := if form.kind = .threshold then form.value? else none
    target? := if form.kind = .target then form.target? else none }

structure WellSized (form : LogicForm) : Prop where
  value : ∀ value ∈ form.value?, value < Nat.pow 2 64
  target : ∀ id ∈ form.target?, id < Nat.pow 2 32
  interval : ∀ ms ∈ form.intervalMillis?, ms < Nat.pow 2 64

end LogicForm

/-- The logic with its interval in whole milliseconds of 64 bits. -/
def Logic.inMillis (logic : Logic) : Logic :=
  { logic with interval? := logic.interval?.map fun s =>
      Time.Span.ofMillis (min (s.nanos / 1000000) (Nat.pow 2 64 - 1)) }

def Policy.WellSized : Policy → Prop
  | .every => True
  | .threshold value => value < Nat.pow 2 64
  | .target id => id < Nat.pow 2 32

def Logic.read? (style : Form.Style) (v : Value) : Option (Except Fault Logic) :=
  (LogicForm.read? style v).map Logic.ofForm

theorem ofForm_of_states (states : form.States policy) :
    Logic.ofForm form = .ok ⟨policy, form.intervalMillis?.map .ofMillis⟩ := by
  obtain ⟨kind, value?, target?, interval?⟩ := form
  cases states with
  | every kind => cases kind; rfl
  | threshold kind given => cases kind; cases given; rfl
  | target kind given => cases kind; cases given; cases value? <;> rfl

theorem ofForm_of_lacks {field : String} (lacks : form.Lacks field) :
    Logic.ofForm form = .error (.incompleteLogic form.kind.text field) := by
  obtain ⟨kind, value?, target?, interval?⟩ := form
  cases lacks with
  | value kind missing => cases kind; cases missing; rfl
  | target kind missing => cases kind; cases missing; cases value? <;> rfl

theorem LogicForm.states_or_lacks (form : LogicForm) :
    (∃ policy, form.States policy) ∨ ∃ field, form.Lacks field := by
  cases kind : form.kind with
  | every => exact .inl ⟨_, .every kind⟩
  | threshold =>
      cases given : form.value? with
      | none => exact .inr ⟨_, .value kind given⟩
      | some value => exact .inl ⟨_, .threshold kind given⟩
  | target =>
      cases given : form.target? with
      | none => exact .inr ⟨_, .target kind given⟩
      | some id => exact .inl ⟨_, .target kind given⟩

theorem ofForm_eq_ok_iff : Logic.ofForm form = .ok logic ↔
    form.States logic.policy ∧ logic.interval? = form.intervalMillis?.map .ofMillis := by
  constructor
  · intro read
    rcases form.states_or_lacks with ⟨policy, states⟩ | ⟨field, lacks⟩
    · rw [ofForm_of_states states] at read
      cases read
      exact ⟨states, rfl⟩
    · rw [ofForm_of_lacks lacks] at read
      cases read
  · obtain ⟨policy, interval?⟩ := logic
    rintro ⟨states, rfl⟩
    exact ofForm_of_states states

theorem ofForm_eq_error_iff : Logic.ofForm form = .error fault ↔
    ∃ field, form.Lacks field ∧ fault = .incompleteLogic form.kind.text field := by
  constructor
  · intro refused
    rcases form.states_or_lacks with ⟨policy, states⟩ | ⟨field, lacks⟩
    · rw [ofForm_of_states states] at refused
      cases refused
    · rw [ofForm_of_lacks lacks] at refused
      cases refused
      exact ⟨field, lacks, rfl⟩
  · rintro ⟨field, lacks, rfl⟩
    exact ofForm_of_lacks lacks

theorem toForm_of_states (states : form.States policy) (interval? : Option Time.Span) :
    Logic.toForm ⟨policy, interval?⟩ =
      { form.own with intervalMillis? := interval?.map Time.Span.toMillis } := by
  cases states with
  | every kind => simp [Logic.toForm, LogicForm.own, kind]
  | threshold kind given => simp [Logic.toForm, LogicForm.own, kind, given]
  | target kind given => simp [Logic.toForm, LogicForm.own, kind, given]

theorem map_toMillis_ofMillis {interval? : Option Nat} (sized : ∀ ms ∈ interval?, ms < Nat.pow 2 64) :
    (interval?.map Time.Span.ofMillis).map Time.Span.toMillis = interval? := by
  cases interval? with
  | none => rfl
  | some ms =>
      exact congrArg some (Time.Span.toMillis_ofMillis (Nat.le_sub_one_of_lt (sized ms rfl)))

theorem toForm_of_ofForm (sized : form.WellSized) (read : Logic.ofForm form = .ok logic) :
    logic.toForm = form.own := by
  obtain ⟨policy, interval?⟩ := logic
  obtain ⟨states, rfl⟩ := ofForm_eq_ok_iff.mp read
  rw [toForm_of_states states, map_toMillis_ofMillis sized.interval]
  rfl

theorem ofForm_toForm (logic : Logic) : Logic.ofForm logic.toForm = .ok logic.inMillis := by
  obtain ⟨policy, interval?⟩ := logic
  cases policy <;> cases interval? <;> rfl

theorem inMillis_eq (logic : Logic) : logic.inMillis =
    { logic with interval? := (logic.interval?.map Time.Span.toMillis).map Time.Span.ofMillis } := by
  obtain ⟨policy, interval?⟩ := logic
  cases interval? <;> rfl

theorem inMillis_of_ofForm (sized : form.WellSized) (read : Logic.ofForm form = .ok logic) :
    logic.inMillis = logic := by
  obtain ⟨policy, interval?⟩ := logic
  obtain ⟨-, rfl⟩ := ofForm_eq_ok_iff.mp read
  rw [inMillis_eq, map_toMillis_ofMillis sized.interval]

theorem toForm_wellSized (sized : logic.policy.WellSized) : logic.toForm.WellSized := by
  obtain ⟨policy, interval?⟩ := logic
  have interval : ∀ ms ∈ interval?.map Time.Span.toMillis, ms < Nat.pow 2 64 := by
    intro ms given
    obtain ⟨s, -, rfl⟩ := Option.map_eq_some_iff.mp given
    exact Nat.lt_of_le_pred (by decide) (Nat.min_le_right _ _)
  cases policy with
  | every => exact ⟨nofun, nofun, interval⟩
  | threshold value => exact ⟨fun _ given => Option.some.inj given ▸ sized, nofun, interval⟩
  | target id => exact ⟨nofun, fun _ given => Option.some.inj given ▸ sized, interval⟩

theorem read?_write (style : Form.Style) (sized : form.WellSized) :
    LogicForm.read? style form.write = some form := by
  have kind : Kind.names.lookup form.kind.text = some form.kind := by
    cases form.kind <;> decide
  have number (name : String) {limit : Nat} {read : Value → Option Nat} {n? : Option Nat}
      (reads : ∀ n, n < limit → read (.ofNat n) = some n) (sized : ∀ n ∈ n?, n < limit)
      (found : (("type", Value.str form.kind.text) :: Form.field? "value" .ofNat form.value? ++
        Form.field? "target_condition" .ofNat form.target? ++
        Form.field? "interval_ms" .ofNat form.intervalMillis?).lookup name = n?.map .ofNat) :=
    Form.optional_of_lookup .ofNat found fun n given => ⟨by simp [Value.ofNat], reads n (sized n given)⟩
  have value := number "value" (fun _ => Form.u64_ofNat) sized.value
    (by simp [List.lookup_cons, List.lookup_append, Form.lookup_field?])
  have target := number "target_condition" (fun _ => Form.u32_ofNat) sized.target
    (by simp [List.lookup_cons, List.lookup_append, Form.lookup_field?])
  have interval := number "interval_ms" (fun _ => Form.u64_ofNat) sized.interval
    (by simp [List.lookup_cons, List.lookup_append, Form.lookup_field?])
  rw [LogicForm.write, LogicForm.read?, Form.bind_record?, value, target, interval]
  simp [Form.required, Form.name, kind]

theorem read?_form (style : Form.Style) (sized : form.WellSized) :
    Logic.read? style form.write = some (Logic.ofForm form) := by
  rw [Logic.read?, read?_write style sized, Option.map_some]

theorem policy_wellSized (sized : form.WellSized) (read : Logic.ofForm form = .ok logic) :
    logic.policy.WellSized := by
  obtain ⟨states, -⟩ := ofForm_eq_ok_iff.mp read
  cases policy : logic.policy with
  | every => trivial
  | threshold value =>
      rw [policy] at states
      cases states with
      | threshold kind given => exact sized.value value given
  | target id =>
      rw [policy] at states
      cases states with
      | target kind given => exact sized.target id given

theorem read?_logic (style : Form.Style) (sized : logic.policy.WellSized) :
    Logic.read? style logic.write = some (.ok logic.inMillis) := by
  rw [Logic.write, read?_form style (toForm_wellSized sized), ofForm_toForm]

/-- A form is read as the logic that it has all the fields of, or refused for the field that it lacks, and what
is read is written without the fields of other kinds. A logic that was not read from a form comes back with
its interval in whole milliseconds. -/
theorem logic_forms_agree (style : Form.Style) :
    (∀ form : LogicForm, form.WellSized →
      Logic.read? style form.write = some (Logic.ofForm form) ∧
      (∀ logic, Logic.ofForm form = .ok logic ↔
        form.States logic.policy ∧ logic.interval? = form.intervalMillis?.map .ofMillis) ∧
      (∀ fault, Logic.ofForm form = .error fault ↔
        ∃ field, form.Lacks field ∧ fault = .incompleteLogic form.kind.text field) ∧
      ∀ logic, Logic.ofForm form = .ok logic →
        logic.toForm = form.own ∧ Logic.ofForm logic.toForm = .ok logic ∧
          Logic.read? style logic.write = some (.ok logic)) ∧
    ∀ logic : Logic, Logic.ofForm logic.toForm = .ok logic.inMillis ∧
      (logic.policy.WellSized → Logic.read? style logic.write = some (.ok logic.inMillis)) := by
  refine ⟨?_, fun logic => ⟨ofForm_toForm logic, read?_logic style⟩⟩
  intro form sized
  refine ⟨read?_form style sized, fun _ => ofForm_eq_ok_iff, fun _ => ofForm_eq_error_iff, ?_⟩
  intro logic read
  have back := read?_logic style (policy_wellSized sized read)
  rw [inMillis_of_ofForm sized read] at back
  refine ⟨toForm_of_ofForm sized read, ?_, back⟩
  rw [ofForm_toForm, inMillis_of_ofForm sized read]

def sampleForm : LogicForm := ⟨.threshold, some 3, some 9, some (Nat.pow 2 64 - 1)⟩

def sampleLogic : Logic := ⟨.target 2, some ⟨1999999⟩⟩

theorem sampleForm_agrees :
    sampleForm.WellSized ∧ sampleLogic.policy.WellSized ∧
      (∃ logic, Logic.ofForm sampleForm = .ok logic ∧
        logic.toForm = ⟨.threshold, some 3, none, some (Nat.pow 2 64 - 1)⟩ ∧
        Logic.read? Form.json logic.write = some (.ok logic)) ∧
      Logic.read? Form.json sampleLogic.write = some (.ok ⟨.target 2, some (.ofMillis 1)⟩) := by
  have sized : sampleForm.WellSized := by constructor <;> rintro n ⟨⟩ <;> decide
  have sized' : sampleLogic.policy.WellSized := by show 2 < Nat.pow 2 32; decide
  obtain ⟨forms, logics⟩ := logic_forms_agree Form.json
  obtain ⟨-, accepted, -, kept⟩ := forms sampleForm sized
  have read := (accepted ⟨.threshold 3, some (.ofMillis (Nat.pow 2 64 - 1))⟩).mpr ⟨.threshold rfl rfl, rfl⟩
  obtain ⟨own, -, back⟩ := kept _ read
  exact ⟨sized, sized', ⟨_, read, own, back⟩, (logics sampleLogic).2 sized'⟩

end Tripwire.Condition
