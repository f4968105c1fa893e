import Tripwire.Proofs.Script.Compilation

namespace Tripwire

theorem Text.Numeral.write_inj {m n : Nat} : write m = write n ↔ m = n := by
  constructor
  · intro same
    have digits := congrArg (Nat.ofDigitChars 10 · 0) same
    simpa only [write, Nat.ofDigitChars_ten_toDigits] using digits
  · exact congrArg write

namespace Action

theorem Kind.unitName_eq (kind : Kind) (priority : Nat) :
    kind.unitName priority = kind.text ++ toString priority := by
  rw [unitName, String.ofList_append, String.ofList_toList, Text.Numeral.write,
    Nat.toString_eq_ofList_toDigits]

theorem Kind.unitName_inj {kind kind' : Kind} {priority priority' : Nat} :
    kind.unitName priority = kind'.unitName priority' ↔ kind = kind' ∧ priority = priority' := by
  constructor
  · intro same
    rw [unitName, unitName, String.ofList_inj] at same
    have kinds : kind = kind' := by
      cases kind <;> cases kind' <;> simp [text] at same ⊢
    subst kinds
    exact ⟨rfl, Text.Numeral.write_inj.mp (List.append_cancel_left same)⟩
  · rintro ⟨rfl, rfl⟩
    rfl

end Action

namespace Script

def Routine.isAuthenticated (r : Routine) : Bool :=
  match r.body with
  | .fetch _ authenticated _ _ _ => authenticated
  | _ => false

variable {s prev : Script} {a : Action} {r : Routine} {keys : List (String × String)}

theorem addKey_of_ofAction (keys : List (String × String)) (made : Routine.ofAction a = .ok r) :
    (r.isAuthenticated = false ∧ addKey keys a = keys) ∨
      (r.isAuthenticated = true ∧ ∃ key, addKey keys a = insertKey r.name key keys) := by
  cases a with
  | custom a =>
      obtain rfl := Except.ok.inj made
      exact .inl ⟨rfl, rfl⟩
  | fetch a =>
      cases present : a.apiKey? with
      | none =>
          obtain rfl := Except.ok.inj made
          exact .inl ⟨by simp [Routine.isAuthenticated, present], by simp [addKey, present]⟩
      | some key =>
          obtain rfl := Except.ok.inj made
          exact .inr ⟨by simp [Routine.isAuthenticated, present], key, by simp [addKey, present]⟩
  | contract a =>
      obtain ⟨t, -, rfl⟩ := Contract.map_eq_ok_iff.mp made
      exact .inl ⟨rfl, rfl⟩

theorem insertKey_perm {name : String} (key : String) (fresh : name ∉ keys.map Prod.fst) :
    (insertKey name key keys).Perm ((name, key) :: keys) := by
  fun_induction insertKey name key keys with
  | case1 | case2 => exact .refl _
  | case3 => exact absurd List.mem_cons_self fresh
  | case4 n k rest unordered differ ih =>
      have fresh : name ∉ rest.map Prod.fst := fun mem => fresh (List.mem_cons_of_mem _ mem)
      exact ((ih fresh).cons (n, k)).trans (.swap ..)

theorem lookup_insertKey_of_ne {name key other : String} (differ : other ≠ name) :
    (insertKey name key keys).lookup other = keys.lookup other := by
  fun_induction insertKey name key keys with
  | case1 => rw [List.lookup_cons, beq_false_of_ne differ]
  | case2 => rw [List.lookup_cons, beq_false_of_ne differ]
  | case3 => rw [List.lookup_cons, List.lookup_cons, beq_false_of_ne differ]
  | case4 n k rest unordered apart ih => rw [List.lookup_cons, List.lookup_cons, ih]

structure Consistent (s : Script) : Prop where
  apart : (s.routines.map Routine.priority).Nodup
  made : ∀ r ∈ s.routines, ∃ a, Routine.ofAction a = .ok r
  keyed : (s.apiKeys.map Prod.fst).Perm
    ((s.routines.filter Routine.isAuthenticated).map Routine.name)

structure WellFormed (s : Script) : Prop extends Consistent s where
  driven : s.driver = s.routines.map Routine.name

/-- Scripts that are compiled, step by step, from the empty one. -/
inductive Reachable : Script → Prop
  | empty : Reachable empty
  | compile {s actions c} : Reachable s → s.compile actions = .ok c → Reachable c.script

theorem Consistent.named (consistent : Consistent s) (mem : r ∈ s.routines) :
    r.name = r.kind.unitName r.priority := by
  obtain ⟨a, made⟩ := consistent.made r mem
  obtain ⟨name, kind, priority, -⟩ := ofAction_eq_ok made
  rw [name, kind, priority, Action.unitName]

theorem Consistent.nodup_names (consistent : Consistent s) : (s.routines.map Routine.name).Nodup := by
  apply List.pairwise_map.mpr
  apply (List.pairwise_map.mp consistent.apart).imp_of_mem
  intro r r' mem mem' apart same
  rw [consistent.named mem, consistent.named mem', Action.Kind.unitName_inj] at same
  exact apart same.2

theorem Consistent.fresh_name (consistent : Consistent s)
    (fresh : a.priority ∉ s.routines.map Routine.priority) :
    a.unitName ∉ s.routines.map Routine.name := by
  intro mem
  obtain ⟨r, mem, same⟩ := List.mem_map.mp mem
  rw [consistent.named mem, Action.unitName, Action.Kind.unitName_inj] at same
  exact fresh (List.mem_map.mpr ⟨r, mem, same.2⟩)

theorem Consistent.fresh_key (consistent : Consistent s)
    (fresh : a.priority ∉ s.routines.map Routine.priority) :
    a.unitName ∉ s.apiKeys.map Prod.fst := by
  intro mem
  have mem := consistent.keyed.mem_iff.mp mem
  have routines := List.filter_sublist (p := Routine.isAuthenticated) (l := s.routines)
  exact consistent.fresh_name fresh ((routines.map Routine.name).mem mem)

theorem Consistent.add (consistent : Consistent s) (made : Routine.ofAction a = .ok r)
    (fresh : a.priority ∉ s.routines.map Routine.priority) : Consistent (s.add a r) := by
  obtain ⟨name, kind, priority, body⟩ := ofAction_eq_ok made
  constructor
  case apart =>
    rw [Script.add, List.map_append, List.map_singleton, List.nodup_append]
    refine ⟨consistent.apart, List.nodup_singleton _, ?_⟩
    rintro p mem q mem' rfl
    rw [List.mem_singleton.mp mem', priority] at mem
    exact fresh mem
  case made =>
    intro r' mem
    rcases List.mem_append.mp mem with old | new
    · exact consistent.made r' old
    · rw [List.mem_singleton.mp new]
      exact ⟨a, made⟩
  case keyed =>
    have unkeyed := consistent.fresh_key fresh
    rw [← name] at unkeyed
    simp only [Script.add, List.filter_append, List.map_append]
    rcases addKey_of_ofAction s.apiKeys made with ⟨open_, same⟩ | ⟨secret, key, same⟩
    · simpa [same, open_] using consistent.keyed
    · rw [same, List.filter_cons_of_pos secret]
      have inserted := (insertKey_perm key unkeyed).map Prod.fst
      exact inserted.trans ((consistent.keyed.cons r.name).trans (List.perm_append_singleton _ _).symm)

theorem Consistent.extend {fresh : List (Action × Routine)} (consistent : Consistent s)
    (made : ∀ entry ∈ fresh, Routine.ofAction entry.1 = .ok entry.2)
    (apart : ((s.extend fresh).routines.map Routine.priority).Nodup) :
    Consistent (s.extend fresh) := by
  induction fresh generalizing s with
  | nil => exact consistent
  | cons entry fresh ih =>
      obtain ⟨made, later⟩ := List.forall_mem_cons.mp made
      refine ih (consistent.add made ?_) later apart
      rw [← (ofAction_eq_ok made).2.2.1]
      rw [routines_extend, List.map_append, List.nodup_append] at apart
      intro mem
      exact apart.2.2 entry.2.priority mem entry.2.priority (by simp) rfl

theorem WellFormed.compile {actions : List Action} {c : Compiled} (wellFormed : WellFormed s)
    (compiled : s.compile actions = .ok c) : WellFormed c.script := by
  obtain ⟨distinct, fresh, brings, rfl⟩ := compile_eq_ok_iff.mp compiled
  have apart := brings.apart wellFormed.apart (distinct.perm (sortActions_perm actions).symm)
  have consistent := wellFormed.toConsistent.extend brings.made apart
  exact ⟨⟨consistent.apart, consistent.made, consistent.keyed⟩, rfl⟩

theorem Reachable.wellFormed (reachable : Reachable s) : WellFormed s := by
  induction reachable with
  | empty => exact ⟨⟨List.nodup_nil, by simp [Script.empty], .refl _⟩, rfl⟩
  | compile _ compiled ih => exact ih.compile compiled

def samplePrice : Action :=
  .fetch {
    priority := 2
    baseUrl := "https://api.example.com/"
    endpoint := "/price"
    responsePath := "data.price"
    apiKey? := some "secret"
    signConditions := [⟨.and, .gt, .int 5⟩]
    toSign := [1, 2, 3] }

def sampleReport : Action := .custom { priority := 7, code := "Lit.Actions.setResponse(1);" }

def sampleRate : Action :=
  .fetch {
    priority := 4
    baseUrl := "https://example.com"
    endpoint := "rate"
    responsePath := "rate"
    apiKey? := none
    signConditions := []
    toSign := [] }

def sampleScript : Script where
  routines := [
    { name := "fetch2"
      kind := .fetch
      priority := 2
      body := .fetch "https://api.example.com/price" true "data.price" [⟨.and, .gt, .int 5⟩] [1, 2, 3] },
    { name := "custom7", kind := .custom, priority := 7, body := .custom "results[\"custom7\"] = 1;" }]
  driver := ["fetch2", "custom7"]
  apiKeys := [("fetch2", "secret")]

def sampleGrown : Script where
  routines := sampleScript.routines ++
    [{ name := "fetch4"
       kind := .fetch
       priority := 4
       body := .fetch "https://example.com/rate" false "rate" [] [] }]
  driver := ["fetch2", "custom7", "fetch4"]
  apiKeys := [("fetch2", "secret")]

theorem compile_sampleScript :
    empty.compile [sampleReport, samplePrice] = .ok ⟨sampleScript, ["fetch2", "custom7"]⟩ := by
  have sorted : sortActions [sampleReport, samplePrice] = [samplePrice, sampleReport] :=
    sortActions_eq (by decide) (by decide) (.swap ..)
  rw [compile, sorted]
  decide +kernel

theorem compile_sampleGrown :
    sampleScript.compile [sampleRate, samplePrice] = .ok ⟨sampleGrown, ["fetch4"]⟩ := by
  have sorted : sortActions [sampleRate, samplePrice] = [samplePrice, sampleRate] :=
    sortActions_eq (by decide) (by decide) (.swap ..)
  rw [compile, sorted]
  decide +kernel

theorem reachable_sampleScript : Reachable sampleScript := .compile .empty compile_sampleScript

theorem reachable_sampleGrown : Reachable sampleGrown :=
  .compile reachable_sampleScript compile_sampleGrown

end Script
end Tripwire
