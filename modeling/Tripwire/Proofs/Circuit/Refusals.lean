import Mathlib.Data.List.Duplicate
import Tripwire.Circuit.Process
import Tripwire.Proofs.Script.Representation

/-!
# Actions that are refused

Of actions that cannot be compiled the first fault in the order of priorities is reported, shared priorities
before all others. The script stays as it was then, and a circuit writes one entry.
-/
namespace Tripwire

/-! ## Contract calls -/

namespace Contract

def Address (address : String) : Prop :=
  ∃ digits, address.toList = '0' :: 'x' :: digits ∧ digits.length = 40 ∧ ∀ c ∈ digits, Text.Hex.isDigit c

theorem isAddress_iff {address : String} : Transaction.isAddress address ↔ Address address := by
  unfold Transaction.isAddress Address
  split
  · rename_i digits same
    simp [same]
  · rename_i other
    simp only [Bool.false_eq_true, false_iff]
    rintro ⟨digits, same, -⟩
    exact other digits same

abbrev Chain.names : List String := Chain.all.map Chain.name

theorem Chain.resolve_eq_error_iff {name : String} {fault : Fault} :
    Chain.resolve name = .error fault ↔ name ∉ Chain.names ∧ fault = .unknownChain name Chain.names := by
  unfold Chain.resolve
  split
  · rename_i chain found
    have known : name ∈ Chain.names := by
      have same : chain.name = name := by simpa using List.find?_some found
      rw [← same]
      exact List.mem_map_of_mem (List.mem_of_find?_eq_some found)
    simp [known]
  · rename_i missing
    have unknown : name ∉ Chain.names := by
      intro mem
      obtain ⟨chain, known, same⟩ := List.mem_map.mp mem
      exact absurd same (by simpa using List.find?_eq_none.mp missing chain known)
    rw [Except.error.injEq, and_iff_right unknown, eq_comm]

inductive Impossible (a : ContractAction) : Fault → Prop
  | chain (unknown : a.chain ∉ Chain.names) : Impossible a (.unknownChain a.chain Chain.names)
  | address (known : a.chain ∈ Chain.names) (malformed : ¬Address a.address) :
      Impossible a (.invalidAddress a.address)
  | call {fault : Fault} (known : a.chain ∈ Chain.names) (wellFormed : Address a.address)
      (rejected : encodeCall a.abi a.function a.args = .error fault) : Impossible a fault

theorem ofAction_eq_error_iff {a : ContractAction} {fault : Fault} :
    Transaction.ofAction a = .error fault ↔ Impossible a fault := by
  unfold Transaction.ofAction
  split
  case h_1 fault' unresolved =>
    obtain ⟨unknown, rfl⟩ := Chain.resolve_eq_error_iff.mp unresolved
    rw [Except.error.injEq]
    constructor
    · rintro rfl
      exact .chain unknown
    · rintro (_ | ⟨known, -⟩ | ⟨known, -⟩)
      · rfl
      all_goals exact absurd known unknown
  case h_2 chain resolved =>
    have known : a.chain ∈ Chain.names := by
      by_contra unknown
      cases resolved.symm.trans (Chain.resolve_eq_error_iff.mpr ⟨unknown, rfl⟩)
    split
    case isTrue malformed =>
      have malformed : ¬Address a.address := by
        rw [← isAddress_iff]
        simpa using malformed
      rw [Except.error.injEq]
      constructor
      · rintro rfl
        exact .address known malformed
      · rintro (unknown | _ | ⟨-, wellFormed, -⟩)
        · exact absurd known unknown
        · rfl
        · exact absurd wellFormed malformed
    case isFalse wellFormed =>
      have wellFormed : Address a.address := by
        rw [← isAddress_iff]
        simpa using wellFormed
      cases encoded : encodeCall a.abi a.function a.args with
      | error fault' =>
          simp only [Except.error.injEq]
          constructor
          · rintro rfl
            exact .call known wellFormed encoded
          · rintro (unknown | ⟨-, malformed⟩ | ⟨-, -, rejected⟩)
            · exact absurd known unknown
            · exact absurd wellFormed malformed
            · exact Except.error.inj (encoded.symm.trans rejected)
      | ok data =>
          simp only [reduceCtorEq, false_iff]
          rintro (unknown | ⟨-, malformed⟩ | ⟨-, -, rejected⟩)
          · exact unknown known
          · exact malformed wellFormed
          · cases encoded.symm.trans rejected

theorem exists_impossible_iff {a : ContractAction} :
    (∃ fault, Impossible a fault) ↔ a.chain ∉ Chain.names ∨ ¬Address a.address ∨
      ∃ fault, encodeCall a.abi a.function a.args = .error fault := by
  constructor
  · rintro ⟨_, unknown | ⟨-, malformed⟩ | ⟨-, -, rejected⟩⟩
    · exact .inl unknown
    · exact .inr (.inl malformed)
    · exact .inr (.inr ⟨_, rejected⟩)
  · rintro faulty
    by_cases known : a.chain ∈ Chain.names
    · by_cases wellFormed : Address a.address
      · rcases faulty with unknown | malformed | ⟨fault, rejected⟩
        · exact absurd known unknown
        · exact absurd wellFormed malformed
        · exact ⟨fault, .call known wellFormed rejected⟩
      · exact ⟨_, .address known wellFormed⟩
    · exact ⟨_, .chain known⟩

end Contract

namespace Script

variable {prev : Script} {c : Compiled} {a : Action} {as bs actions : List Action} {fault : Fault}

/-! ## Shared priorities -/

def Shared (actions : List Action) (priority : Nat) : Prop :=
  (actions.map Action.priority).Duplicate priority

theorem distinct_iff_unshared : Distinct actions ↔ ∀ priority, ¬Shared actions priority :=
  List.nodup_iff_forall_not_duplicate

theorem Shared.perm {priority : Nat} (same : as.Perm bs) : Shared as priority ↔ Shared bs priority := by
  rw [Shared, Shared, List.duplicate_iff_two_le_count, List.duplicate_iff_two_le_count,
    (same.map Action.priority).count_eq]

def LeastShared (actions : List Action) (priority : Nat) : Prop :=
  Shared actions priority ∧ ∀ other, Shared actions other → priority ≤ other

theorem LeastShared.perm {priority : Nat} (same : as.Perm bs) :
    LeastShared as priority ↔ LeastShared bs priority := by
  simp only [LeastShared, Shared.perm same]

theorem LeastShared.unique {p q : Nat} (left : LeastShared actions p) (right : LeastShared actions q) :
    p = q :=
  Nat.le_antisymm (left.2 q right.1) (right.2 p left.1)

theorem leastShared_of_sharedPriority? {priority : Nat} (ascending : Ascending actions)
    (found : sharedPriority? actions = some priority) : LeastShared actions priority := by
  fun_induction sharedPriority? actions with
  | case1 a b rest same =>
      obtain rfl := Option.some.inj found
      refine ⟨List.Mem.duplicate_cons_self (by simp [same]), ?_⟩
      intro other shared
      obtain ⟨c, mem, rfl⟩ := List.mem_map.mp shared.mem
      rcases List.mem_cons.mp mem with rfl | later
      · exact Nat.le_refl _
      · exact List.rel_of_pairwise_cons ascending later
  | case2 a b rest apart ih =>
      obtain ⟨shared, least⟩ := ih ascending.of_cons found
      refine ⟨shared.duplicate_cons a.priority, ?_⟩
      intro other shared
      rcases List.duplicate_cons_iff.mp shared with ⟨rfl, mem⟩ | later
      · exact absurd mem (ascending.fresh apart)
      · exact least other later
  | case3 => cases found

/-! ## Refused actions -/

/-- Why a script refuses an action. A contract call is looked at only if its priority is free. -/
inductive Refusal (s : Script) : Action → Fault → Prop
  | taken {a : Action} {r : Routine} (mem : r ∈ s.routines) (same : r.priority = a.priority)
      (other : r.kind ≠ a.kind) : Refusal s a (.duplicatePriority a.priority)
  | impossible {call : ContractAction} {fault : Fault}
      (free : call.priority ∉ s.routines.map Routine.priority)
      (impossible : Contract.Impossible call fault) : Refusal s (.contract call) fault

theorem ofAction_eq_error_iff :
    Routine.ofAction a = .error fault ↔ ∃ call, a = .contract call ∧ Contract.Impossible call fault := by
  cases a with
  | custom a | fetch a => simp [Routine.ofAction]
  | contract a =>
      simp only [Action.contract.injEq, exists_eq_left', ← Contract.ofAction_eq_error_iff]
      exact Contract.map_eq_error_iff

theorem Consistent.name_eq_iff {r : Routine} (consistent : Consistent prev) (mem : r ∈ prev.routines)
    (same : r.priority = a.priority) : r.name = a.unitName ↔ r.kind = a.kind := by
  rw [consistent.named mem, Action.unitName, Action.Kind.unitName_inj, and_iff_left same]

theorem addAction_eq_error_iff (consistent : Consistent prev) :
    addAction prev c a = .error fault ↔ Refusal prev a fault := by
  unfold addAction
  split
  case h_1 old found =>
    have mem := List.mem_of_find?_eq_some found
    have same : old.priority = a.priority := by simpa using List.find?_some found
    simp only [consistent.name_eq_iff mem same]
    split
    case isTrue kept =>
      simp only [reduceCtorEq, false_iff]
      rintro (⟨mem', same', other⟩ | ⟨free, -⟩)
      · obtain rfl := List.inj_on_of_nodup_map consistent.apart mem mem' (same.trans same'.symm)
        exact other kept
      · exact free (List.mem_map.mpr ⟨old, mem, same⟩)
    case isFalse other =>
      rw [Except.error.injEq]
      constructor
      · rintro rfl
        exact .taken mem same other
      · rintro (- | ⟨free, -⟩)
        · rfl
        · exact absurd (List.mem_map.mpr ⟨old, mem, same⟩) free
  case h_2 missing =>
    have free : a.priority ∉ prev.routines.map Routine.priority := routineAt?_eq_none_iff.mp missing
    rw [Contract.map_eq_error_iff, ofAction_eq_error_iff]
    constructor
    · rintro ⟨call, rfl, impossible⟩
      exact .impossible free impossible
    · rintro (⟨mem, same, -⟩ | ⟨-, impossible⟩)
      · exact absurd (List.mem_map.mpr ⟨_, mem, same⟩) free
      · exact ⟨_, rfl, impossible⟩

theorem addActions_eq_error_iff (consistent : Consistent prev) :
    addActions prev c actions = .error fault ↔ ∃ before a after, actions = before ++ a :: after ∧
      (∀ b ∈ before, ∀ fault, ¬Refusal prev b fault) ∧ Refusal prev a fault := by
  induction actions generalizing c with
  | nil => simp [addActions]
  | cons a rest ih =>
      rw [addActions]
      cases added : addAction prev c a with
      | error fault' =>
          have refused := (addAction_eq_error_iff consistent).mp added
          rw [Except.error.injEq]
          constructor
          · rintro rfl
            exact ⟨[], a, rest, rfl, by simp, refused⟩
          · rintro ⟨_ | ⟨b, before⟩, a', after, same, accepted, refused'⟩
            · obtain ⟨rfl, rfl⟩ := List.cons.inj same
              have again := (addAction_eq_error_iff (c := c) consistent).mpr refused'
              exact Except.error.inj (added.symm.trans again)
            · obtain ⟨rfl, rfl⟩ := List.cons.inj same
              exact absurd refused (accepted a List.mem_cons_self fault')
      | ok next =>
          have accepted : ∀ fault, ¬Refusal prev a fault := by
            intro fault refused
            cases added.symm.trans ((addAction_eq_error_iff consistent).mpr refused)
          simp only [ih]
          constructor
          · rintro ⟨before, b, after, rfl, others, refused⟩
            exact ⟨a :: before, b, after, rfl, List.forall_mem_cons.mpr ⟨accepted, others⟩, refused⟩
          · rintro ⟨_ | ⟨b, before⟩, a', after, same, others, refused⟩
            · obtain ⟨rfl, rfl⟩ := List.cons.inj same
              exact absurd refused (accepted fault)
            · obtain ⟨rfl, rfl⟩ := List.cons.inj same
              exact ⟨before, a', after, rfl, (List.forall_mem_cons.mp others).2, refused⟩

def FirstRefused (s : Script) (actions : List Action) (fault : Fault) : Prop :=
  ∃ a ∈ actions, Refusal s a fault ∧ ∀ b ∈ actions, ∀ fault, Refusal s b fault → a.priority ≤ b.priority

theorem FirstRefused.perm (same : as.Perm bs) : FirstRefused prev as fault ↔ FirstRefused prev bs fault := by
  simp only [FirstRefused, same.mem_iff]

theorem firstRefused_iff (distinct : Distinct actions) (ascending : Ascending actions) :
    FirstRefused prev actions fault ↔ ∃ before a after, actions = before ++ a :: after ∧
      (∀ b ∈ before, ∀ fault, ¬Refusal prev b fault) ∧ Refusal prev a fault := by
  constructor
  · rintro ⟨a, mem, refused, least⟩
    obtain ⟨before, after, rfl⟩ := List.append_of_mem mem
    refine ⟨before, a, after, rfl, ?_, refused⟩
    intro b mem fault refused'
    have below := (List.pairwise_append.mp (distinct.pairwise_lt ascending)).2.2 b mem a List.mem_cons_self
    have above := least b (List.mem_append_left _ mem) fault refused'
    omega
  · rintro ⟨before, a, after, rfl, accepted, refused⟩
    refine ⟨a, by simp, refused, ?_⟩
    intro b mem fault refused'
    rcases List.mem_append.mp mem with earlier | later
    · exact absurd refused' (accepted b earlier fault)
    rcases List.mem_cons.mp later with rfl | later
    · exact Nat.le_refl _
    · exact List.rel_of_pairwise_cons (List.pairwise_append.mp ascending).2.1 later

/-! ## Compiling what is refused -/

theorem compile_eq_error_iff (consistent : Consistent prev) :
    prev.compile actions = .error fault ↔
      (∃ priority, LeastShared actions priority ∧ fault = .duplicatePriority priority) ∨
      Distinct actions ∧ FirstRefused prev actions fault := by
  have ascending := ascending_sortActions actions
  have same := sortActions_perm actions
  unfold compile
  dsimp only
  split
  case h_1 priority found =>
    have least := (LeastShared.perm same).mp (leastShared_of_sharedPriority? ascending found)
    have undistinct : ¬Distinct actions := fun distinct =>
      distinct_iff_unshared.mp distinct priority least.1
    rw [Except.error.injEq, or_iff_left (fun both => undistinct both.1)]
    constructor
    · rintro rfl
      exact ⟨priority, least, rfl⟩
    · rintro ⟨other, least', rfl⟩
      rw [least.unique least']
  case h_2 unshared =>
    have distinct := (sharedPriority?_eq_none_iff ascending).mp unshared
    have unshared := distinct_iff_unshared.mp (distinct.perm same)
    rw [Contract.map_eq_error_iff, addActions_eq_error_iff consistent, ← firstRefused_iff distinct ascending,
      FirstRefused.perm same]
    constructor
    · exact fun first => .inr ⟨distinct.perm same, first⟩
    · rintro (⟨priority, least, -⟩ | ⟨-, first⟩)
      · exact absurd least.1 (unshared priority)
      · exact first

theorem exists_firstRefused_iff :
    (∃ fault, FirstRefused prev actions fault) ↔ ∃ a ∈ actions, ∃ fault, Refusal prev a fault := by
  constructor
  · rintro ⟨fault, a, mem, refused, -⟩
    exact ⟨a, mem, fault, refused⟩
  · rintro ⟨a, mem, fault, refused⟩
    let Refused (priority : Nat) : Prop :=
      ∃ b ∈ actions, b.priority = priority ∧ ∃ fault, Refusal prev b fault
    have some_ : ∃ priority, Refused priority := ⟨a.priority, a, mem, rfl, fault, refused⟩
    classical
    obtain ⟨b, mem', same, fault', refused'⟩ := Nat.find_spec some_
    refine ⟨fault', b, mem', refused', ?_⟩
    intro d mem'' fault'' refused''
    rw [same]
    exact Nat.find_min' some_ ⟨d, mem'', rfl, fault'', refused''⟩

theorem exists_refusal_iff (consistent : Consistent prev) :
    (∃ a ∈ actions, ∃ fault, Refusal prev a fault) ↔
      (∃ a ∈ actions, ∃ r ∈ prev.routines, r.priority = a.priority ∧ r.kind ≠ a.kind) ∨
      ∃ call, Action.contract call ∈ actions ∧
        (Action.contract call).unitName ∉ prev.routines.map Routine.name ∧
        ∃ fault, Contract.Impossible call fault := by
  constructor
  · rintro ⟨a, mem, fault, ⟨mem', same, other⟩ | ⟨free, impossible⟩⟩
    · exact .inl ⟨a, mem, _, mem', same, other⟩
    · exact .inr ⟨_, mem, consistent.fresh_name free, fault, impossible⟩
  · rintro (⟨a, mem, r, mem', same, other⟩ | ⟨call, mem, absent, fault, impossible⟩)
    · exact ⟨a, mem, _, .taken mem' same other⟩
    · by_cases free : call.priority ∉ prev.routines.map Routine.priority
      · exact ⟨_, mem, fault, .impossible free impossible⟩
      · obtain ⟨r, mem', same⟩ := List.mem_map.mp (not_not.mp free)
        refine ⟨_, mem, _, .taken mem' same ?_⟩
        intro kind
        have named := (consistent.name_eq_iff (a := .contract call) mem' same).mpr kind
        exact absent (List.mem_map.mpr ⟨r, mem', named⟩)

theorem exists_compile_eq_error_iff (consistent : Consistent prev) :
    (∃ fault, prev.compile actions = .error fault) ↔
      (∃ priority, Shared actions priority) ∨ ∃ a ∈ actions, ∃ fault, Refusal prev a fault := by
  rw [← exists_firstRefused_iff]
  simp only [compile_eq_error_iff consistent]
  constructor
  · rintro ⟨fault, ⟨priority, least, -⟩ | ⟨-, first⟩⟩
    · exact .inl ⟨priority, least.1⟩
    · exact .inr ⟨fault, first⟩
  · intro faulty
    by_cases distinct : Distinct actions
    · rcases faulty with ⟨priority, shared⟩ | ⟨fault, first⟩
      · exact absurd shared (distinct_iff_unshared.mp distinct priority)
      · exact ⟨fault, .inr ⟨distinct, first⟩⟩
    · rw [distinct_iff_unshared, not_forall_not] at distinct
      classical
      refine ⟨_, .inl ⟨Nat.find distinct, ⟨Nat.find_spec distinct, ?_⟩, rfl⟩⟩
      exact fun other shared => Nat.find_min' distinct shared

end Script

namespace Circuit
open Script

/-! ## Atomicity -/

theorem setActions_of_error {actions : List Action} {fault : Fault} (c : Circuit) (now : Time.Instant)
    (refused : c.script.compile actions = .error fault) :
    c.setActions now actions = ({ c with log := c.log.append ⟨.compileFailed fault, now⟩ }, .error fault) := by
  unfold setActions
  rw [refused]
  rfl

/-- Compiling fails if a priority is shared, or is taken by a routine of another kind, or if a contract call
without a routine is impossible. A shared priority is reported first, then the refused action of the lowest
priority. Then a circuit, wherever in its life it is, gets one more entry, an error, and is otherwise as before. -/
theorem refused_actions_change_nothing {prev : Script} (reachable : Reachable prev) (actions : List Action) :
    ((∃ fault, prev.compile actions = .error fault) ↔
      (∃ priority, Shared actions priority) ∨
      (∃ a ∈ actions, ∃ r ∈ prev.routines, r.priority = a.priority ∧ r.kind ≠ a.kind) ∨
      ∃ call, Action.contract call ∈ actions ∧
        (Action.contract call).unitName ∉ prev.routines.map Routine.name ∧
        (call.chain ∉ Contract.Chain.names ∨ ¬Contract.Address call.address ∨
          ∃ fault, Contract.encodeCall call.abi call.function call.args = .error fault)) ∧
    (∀ fault, prev.compile actions = .error fault ↔
      (∃ priority, LeastShared actions priority ∧ fault = .duplicatePriority priority) ∨
      Distinct actions ∧ FirstRefused prev actions fault) ∧
    ∀ (p : Process) (now : Time.Instant) (fault : Fault), p.circuit.script = prev →
      prev.compile actions = .error fault →
      let entry : Noted := ⟨.compileFailed fault, now⟩
      let c := { p.circuit with log := p.circuit.log.append entry }
      entry.entry.category = .error ∧ p.circuit.setActions now actions = (c, .error fault) ∧
        p.step? now (.setActions actions) = some { p with circuit := c } := by
  have consistent := reachable.wellFormed.toConsistent
  refine ⟨?_, fun fault => compile_eq_error_iff consistent, ?_⟩
  · rw [exists_compile_eq_error_iff consistent, exists_refusal_iff consistent]
    simp only [Contract.exists_impossible_iff]
  · rintro p now fault rfl refused
    have same := setActions_of_error p.circuit now refused
    refine ⟨rfl, same, ?_⟩
    rw [Process.step?, same]

def sampleClash : Action := .custom { priority := 2, code := "Lit.Actions.setResponse(2);" }

def sampleStray : Action :=
  .contract {
    priority := 1
    address := "0x"
    abi := .list []
    function := "transfer"
    args := []
    chain := "nowhere"
    nonce? := none
    gasLimit? := none
    value? := none
    maxPriorityFee? := none
    maxFee? := none }

def sampleRunning : Process := ⟨{ new with script := sampleScript, status := .running }, .between none⟩

theorem refusal_sampleStray :
    FirstRefused sampleScript [sampleClash, sampleStray]
      (.unknownChain "nowhere" Contract.Chain.names) := by
  refine ⟨sampleStray, by simp, .impossible (by decide) (.chain (by decide)), ?_⟩
  simp [sampleClash, sampleStray, Action.priority]

theorem sampleStray_changes_nothing :
    let fault : Fault := .unknownChain "nowhere" Contract.Chain.names
    let log := sampleRunning.circuit.log.append ⟨.compileFailed fault, ⟨0, 0⟩⟩
    Reachable sampleScript ∧
      sampleRunning.step? ⟨0, 0⟩ (.setActions [sampleClash, sampleStray]) =
        some { sampleRunning with circuit := { sampleRunning.circuit with log := log } } := by
  obtain ⟨-, faults, atomic⟩ :=
    refused_actions_change_nothing reachable_sampleScript [sampleClash, sampleStray]
  have refused := (faults _).mpr (.inr ⟨by decide, refusal_sampleStray⟩)
  exact ⟨reachable_sampleScript, (atomic sampleRunning ⟨0, 0⟩ _ rfl refused).2.2⟩

end Circuit
end Tripwire
