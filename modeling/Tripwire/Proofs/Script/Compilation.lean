import Mathlib.Data.List.Nodup
import Tripwire.Proofs.Contract.Integer
import Tripwire.Script.Compile

namespace Tripwire.Script
open Contract (map_eq_ok_iff)

abbrev Distinct (actions : List Action) : Prop := (actions.map Action.priority).Nodup

abbrev Ascending (actions : List Action) : Prop :=
  actions.Pairwise fun a b => a.priority ≤ b.priority

variable {as bs actions rest : List Action} {a : Action}

theorem sortActions_perm (actions : List Action) : (sortActions actions).Perm actions :=
  List.mergeSort_perm actions _

theorem ascending_sortActions (actions : List Action) : Ascending (sortActions actions) := by
  let below (a b : Action) : Bool := a.priority ≤ b.priority
  have trans (a b c : Action) : below a b → below b c → below a c := by
    simp only [below, decide_eq_true_eq]
    exact Nat.le_trans
  have total (a b : Action) : (below a b || below b a) = true := by
    simpa [below] using Nat.le_total a.priority b.priority
  have sorted := List.pairwise_mergeSort trans total actions
  simp only [below, decide_eq_true_eq] at sorted
  exact sorted

theorem Distinct.perm (distinct : Distinct as) (same : as.Perm bs) : Distinct bs :=
  (same.map Action.priority).nodup_iff.mp distinct

theorem Distinct.eq_of_mem {b : Action} (distinct : Distinct actions) (left : a ∈ actions)
    (right : b ∈ actions) (same : a.priority = b.priority) : a = b :=
  List.inj_on_of_nodup_map distinct left right same

theorem Distinct.eq_of_ascending (distinct : Distinct as) (left : Ascending as)
    (right : Ascending bs) (same : as.Perm bs) : as = bs := by
  apply List.Perm.eq_of_pairwise _ left right same
  intro a b mem mem' below above
  exact distinct.eq_of_mem mem (same.mem_iff.mpr mem') (Nat.le_antisymm below above)

theorem sortActions_eq (distinct : Distinct as) (ascending : Ascending bs) (same : as.Perm bs) :
    sortActions as = bs := by
  have sorted := sortActions_perm as
  exact (distinct.perm sorted.symm).eq_of_ascending (ascending_sortActions as) ascending
    (sorted.trans same)

theorem Distinct.pairwise_lt (distinct : Distinct actions) (ascending : Ascending actions) :
    actions.Pairwise fun a b => a.priority < b.priority := by
  have apart := List.pairwise_map.mp distinct
  exact (ascending.and apart).imp fun ⟨below, ne⟩ => Nat.lt_of_le_of_ne below ne

theorem Ascending.fresh {b : Action} (ascending : Ascending (a :: b :: rest))
    (apart : a.priority ≠ b.priority) : a.priority ∉ (b :: rest).map Action.priority := by
  obtain ⟨least, ascending⟩ := List.pairwise_cons.mp ascending
  intro mem
  obtain ⟨c, mem, same⟩ := List.mem_map.mp mem
  have below := least b List.mem_cons_self
  rcases List.mem_cons.mp mem with rfl | later
  · exact apart same.symm
  · have := List.rel_of_pairwise_cons ascending later
    omega

theorem sharedPriority?_eq_none_iff (ascending : Ascending actions) :
    sharedPriority? actions = none ↔ Distinct actions := by
  fun_induction sharedPriority? actions with
  | case1 a b rest same => simp [Distinct, same]
  | case2 a b rest apart ih =>
      have fresh := ascending.fresh apart
      rw [ih ascending.of_cons, Distinct, Distinct, List.map_cons (l := b :: rest), List.nodup_cons]
      exact ⟨fun distinct => ⟨fresh, distinct⟩, And.right⟩
  | case3 actions short =>
      match actions, short with
      | [], _ | [_], _ => simp [Distinct]
      | a :: b :: rest, short => exact absurd rfl (short a b rest)

theorem sharedPriority?_congr {as bs : List Action}
    (same : as.map Action.priority = bs.map Action.priority) :
    sharedPriority? as = sharedPriority? bs := by
  match as, bs with
  | [], [] | [_], [_] => rfl
  | a :: a' :: as, b :: b' :: bs =>
      obtain ⟨here, later⟩ := List.cons.inj same
      have next := (List.cons.inj later).1
      have ih := sharedPriority?_congr later
      rw [sharedPriority?, sharedPriority?, here, next, ih]
  | [], _ :: _ | _ :: _, [] | [_], _ :: _ :: _ | _ :: _ :: _, [_] => simp at same

def routineAt? (s : Script) (priority : Nat) : Option Routine :=
  s.routines.find? fun r => r.priority = priority

def add (s : Script) (action : Action) (routine : Routine) : Script :=
  { s with
    routines := s.routines ++ [routine]
    apiKeys := addKey s.apiKeys action }

def extend (s : Script) (fresh : List (Action × Routine)) : Script :=
  fresh.foldl (fun s entry => s.add entry.1 entry.2) s

/-- Each action finds its routine in the script or brings a fresh one. -/
structure Brings (s : Script) (actions : List Action) (fresh : List (Action × Routine)) : Prop where
  known : ∀ a ∈ actions, ∀ old, s.routineAt? a.priority = some old → old.name = a.unitName
  new : fresh.map Prod.fst = actions.filter fun a => (s.routineAt? a.priority).isNone
  made : ∀ entry ∈ fresh, Routine.ofAction entry.1 = .ok entry.2

variable {s prev : Script} {c c' : Compiled} {fresh fresh' : List (Action × Routine)}
variable {routine : Routine} {entry : Action × Routine}

theorem extend_append : s.extend (fresh ++ fresh') = (s.extend fresh).extend fresh' :=
  List.foldl_append

@[simp] theorem routines_extend : (s.extend fresh).routines = s.routines ++ fresh.map Prod.snd := by
  induction fresh generalizing s with
  | nil => simp [extend]
  | cons entry fresh ih => exact ih.trans (by simp [add])

@[simp] theorem apiKeys_extend :
    (s.extend fresh).apiKeys = fresh.foldl (fun keys entry => addKey keys entry.1) s.apiKeys := by
  induction fresh generalizing s with
  | nil => rfl
  | cons entry fresh ih => exact ih

theorem addActions_cons_eq_ok_iff :
    addActions prev c (a :: rest) = .ok c' ↔
      ∃ next, addAction prev c a = .ok next ∧ addActions prev next rest = .ok c' := by
  rw [addActions]
  cases addAction prev c a <;> simp

theorem addAction_eq_ok_iff :
    addAction prev c a = .ok c' ↔
      (∃ old, prev.routineAt? a.priority = some old ∧ old.name = a.unitName ∧ c' = c) ∨
      (∃ routine, prev.routineAt? a.priority = none ∧ Routine.ofAction a = .ok routine ∧
        c' = ⟨c.script.add a routine, c.added ++ [routine.name]⟩) := by
  unfold addAction routineAt?
  split
  case h_1 old found =>
    by_cases named : old.name = a.unitName
    · simp [found, named, eq_comm]
    · simp [found, named]
  case h_2 missing =>
    rw [map_eq_ok_iff]
    simp only [missing, reduceCtorEq, false_and, exists_false, false_or, true_and, add]
    exact exists_congr fun routine => and_congr_right' eq_comm

theorem brings_nil : Brings s [] [] := ⟨by simp, rfl, by simp⟩

theorem brings_cons_of_known {old : Routine} (found : s.routineAt? a.priority = some old) :
    Brings s (a :: rest) fresh ↔ old.name = a.unitName ∧ Brings s rest fresh := by
  constructor
  · rintro ⟨known, new, made⟩
    refine ⟨known a List.mem_cons_self old found,
      fun b mem => known b (List.mem_cons_of_mem a mem), ?_, made⟩
    simpa [found] using new
  · rintro ⟨named, known, new, made⟩
    refine ⟨?_, by simpa [found] using new, made⟩
    intro b mem old' found'
    rcases List.mem_cons.mp mem with rfl | later
    · rwa [← Option.some.inj (found.symm.trans found')]
    · exact known b later old' found'

theorem brings_cons_of_new (missing : s.routineAt? a.priority = none) :
    Brings s (a :: rest) fresh ↔ ∃ routine fresh', Routine.ofAction a = .ok routine ∧
      Brings s rest fresh' ∧ fresh = (a, routine) :: fresh' := by
  constructor
  · rintro ⟨known, new, made⟩
    rw [List.filter_cons_of_pos (by simp [missing])] at new
    obtain ⟨⟨a', routine⟩, fresh', rfl, rfl, later⟩ := List.map_eq_cons_iff.mp new
    obtain ⟨made, others⟩ := List.forall_mem_cons.mp made
    exact ⟨routine, fresh', made,
      ⟨fun b mem => known b (List.mem_cons_of_mem _ mem), later, others⟩, rfl⟩
  · rintro ⟨routine, fresh', made, ⟨known, new, others⟩, rfl⟩
    refine ⟨?_, ?_, List.forall_mem_cons.mpr ⟨made, others⟩⟩
    · intro b mem old found
      rcases List.mem_cons.mp mem with rfl | later
      · simp [missing] at found
      · exact known b later old found
    · rw [List.filter_cons_of_pos (by simp [missing]), List.map_cons, new]

theorem addActions_eq_ok_iff :
    addActions prev c actions = .ok c' ↔ ∃ fresh, Brings prev actions fresh ∧
      c' = ⟨c.script.extend fresh, c.added ++ fresh.map fun entry => entry.2.name⟩ := by
  induction actions generalizing c with
  | nil =>
      rw [addActions, Except.ok.injEq]
      constructor
      · rintro rfl
        exact ⟨[], brings_nil, by simp [extend]⟩
      · rintro ⟨fresh, ⟨-, new, -⟩, rfl⟩
        rw [List.map_eq_nil_iff.mp new]
        simp [extend]
  | cons a rest ih =>
      rw [addActions_cons_eq_ok_iff]
      cases found : prev.routineAt? a.priority with
      | some old => simp [addAction_eq_ok_iff, found, ih, brings_cons_of_known found, and_assoc]
      | none => simp [addAction_eq_ok_iff, found, ih, brings_cons_of_new found, and_assoc, extend]

theorem compile_eq_ok_iff :
    prev.compile actions = .ok c ↔ Distinct actions ∧ ∃ fresh,
      Brings prev (sortActions actions) fresh ∧
        c = ⟨(prev.extend fresh).withDriver, fresh.map fun entry => entry.2.name⟩ := by
  have distinct_iff := sharedPriority?_eq_none_iff (ascending_sortActions actions)
  have same : Distinct (sortActions actions) ↔ Distinct actions :=
    ⟨fun distinct => distinct.perm (sortActions_perm actions),
      fun distinct => distinct.perm (sortActions_perm actions).symm⟩
  rw [same] at distinct_iff
  unfold compile
  dsimp only
  split
  case h_1 priority shared =>
    simp [shared] at distinct_iff
    simp [distinct_iff]
  case h_2 unshared =>
    rw [map_eq_ok_iff]
    constructor
    · rintro ⟨compiled, added, rfl⟩
      obtain ⟨fresh, brings, rfl⟩ := addActions_eq_ok_iff.mp added
      exact ⟨distinct_iff.mp unshared, fresh, brings, rfl⟩
    · rintro ⟨-, fresh, brings, rfl⟩
      exact ⟨_, addActions_eq_ok_iff.mpr ⟨fresh, brings, rfl⟩, rfl⟩

def Body.kind : Body → Action.Kind
  | .custom _ => .custom
  | .fetch .. => .fetch
  | .contract _ => .contract

theorem ofAction_eq_ok (made : Routine.ofAction a = .ok r) :
    r.name = a.unitName ∧ r.kind = a.kind ∧ r.priority = a.priority ∧ r.body.kind = a.kind := by
  cases a with
  | custom a =>
      obtain rfl := Except.ok.inj made
      exact ⟨rfl, rfl, rfl, rfl⟩
  | fetch a =>
      obtain rfl := Except.ok.inj made
      exact ⟨rfl, rfl, rfl, rfl⟩
  | contract a =>
      obtain ⟨t, -, rfl⟩ := Contract.map_eq_ok_iff.mp made
      exact ⟨rfl, rfl, rfl, rfl⟩

theorem routineAt?_eq_none_iff {priority : Nat} :
    s.routineAt? priority = none ↔ priority ∉ s.routines.map Routine.priority := by
  simp [routineAt?]

namespace Brings

theorem mem (brings : Brings s actions fresh) (mem : entry ∈ fresh) :
    entry.1 ∈ actions ∧ s.routineAt? entry.1.priority = none := by
  have brought := List.mem_map_of_mem (f := Prod.fst) mem
  rw [brings.new] at brought
  simpa using brought

theorem priorities (brings : Brings s actions fresh) :
    (fresh.map Prod.snd).map Routine.priority = (fresh.map Prod.fst).map Action.priority := by
  rw [List.map_map, List.map_map]
  apply List.map_congr_left
  intro entry mem
  exact (ofAction_eq_ok (brings.made entry mem)).2.2.1

theorem apart (brings : Brings s actions fresh) (apart : (s.routines.map Routine.priority).Nodup)
    (distinct : Distinct actions) : ((s.extend fresh).routines.map Routine.priority).Nodup := by
  rw [routines_extend, List.map_append, List.nodup_append, brings.priorities]
  refine ⟨apart, ?_, ?_⟩
  · rw [brings.new]
    exact distinct.sublist (List.filter_sublist.map Action.priority)
  · rintro p old q mem rfl
    obtain ⟨a, brought, rfl⟩ := List.mem_map.mp mem
    obtain ⟨entry, new, rfl⟩ := List.mem_map.mp brought
    exact routineAt?_eq_none_iff.mp (brings.mem new).2 old

end Brings

end Tripwire.Script
