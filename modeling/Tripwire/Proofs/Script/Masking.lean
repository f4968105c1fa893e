import Tripwire.Proofs.Script.Compilation

namespace Tripwire

def Action.masked : Action → Action
  | .fetch a => .fetch { a with apiKey? := a.apiKey?.map fun _ => "" }
  | action => action

@[simp] theorem Action.priority_masked (a : Action) : a.masked.priority = a.priority := by
  cases a <;> rfl

@[simp] theorem Action.unitName_masked (a : Action) : a.masked.unitName = a.unitName := by
  cases a <;> rfl

namespace Script

variable (previous : Script) (actions : List Action) (a : Action)

def maskKeys (keys : List (String × String)) : List (String × String) :=
  keys.map (Prod.map id fun _ => "")

def masked (s : Script) : Script := { s with apiKeys := maskKeys s.apiKeys }

def Compiled.masked (c : Compiled) : Compiled := { c with script := c.script.masked }

theorem insertKey_maskKeys (name key : String) (keys : List (String × String)) :
    insertKey name "" (maskKeys keys) = maskKeys (insertKey name key keys) := by
  fun_induction insertKey name key keys with
  | case1 => rfl
  | case2 n k rest before => simp [maskKeys, insertKey, before]
  | case3 k rest unordered => simp [maskKeys, insertKey]
  | case4 n k rest unordered apart ih =>
      simp only [maskKeys, List.map_cons, Prod.map_apply, id_eq] at ih ⊢
      rw [insertKey, if_neg unordered, if_neg apart, ih]

theorem addKey_masked (keys : List (String × String)) :
    addKey (maskKeys keys) a.masked = maskKeys (addKey keys a) := by
  cases a with
  | fetch a =>
      rcases a with ⟨priority, baseUrl, endpoint, responsePath, key?, signConditions, toSign⟩
      cases key? with
      | none => rfl
      | some key => exact insertKey_maskKeys _ key keys
  | custom | contract => rfl

theorem ofAction_masked : Routine.ofAction a.masked = Routine.ofAction a := by
  cases a with
  | fetch a =>
      rcases a with ⟨priority, baseUrl, endpoint, responsePath, key?, signConditions, toSign⟩
      cases key? <;> rfl
  | custom | contract => rfl

theorem addAction_masked (c : Compiled) :
    addAction previous.masked c.masked a.masked = (addAction previous c a).map Compiled.masked := by
  have routines : previous.masked.routines = previous.routines := rfl
  simp only [addAction, routines, Action.priority_masked, Action.unitName_masked, ofAction_masked]
  cases previous.routines.find? fun r => r.priority = a.priority with
  | some old => by_cases named : old.name = a.unitName <;> simp [named, Except.map]
  | none =>
      cases Routine.ofAction a with
      | error fault => rfl
      | ok routine => simp [Except.map, Compiled.masked, Script.masked, addKey_masked]

theorem addActions_masked (c : Compiled) :
    addActions previous.masked c.masked (actions.map Action.masked) =
      (addActions previous c actions).map Compiled.masked := by
  induction actions generalizing c with
  | nil => rfl
  | cons a rest ih =>
      rw [List.map_cons, addActions, addActions, addAction_masked]
      cases addAction previous c a with
      | error fault => rfl
      | ok next => exact ih next

theorem sortActions_masked :
    sortActions (actions.map Action.masked) = (sortActions actions).map Action.masked := by
  symm
  apply List.map_mergeSort
  intro a _ b _
  rw [Action.priority_masked, Action.priority_masked]

theorem compile_masked :
    previous.masked.compile (actions.map Action.masked) =
      (previous.compile actions).map Compiled.masked := by
  have priorities : ((sortActions actions).map Action.masked).map Action.priority =
      (sortActions actions).map Action.priority := by
    rw [List.map_map]
    exact List.map_congr_left fun a _ => a.priority_masked
  simp only [compile, sortActions_masked, sharedPriority?_congr priorities]
  split
  · rfl
  · have added := addActions_masked previous (sortActions actions) ⟨previous, []⟩
    rw [show Compiled.masked ⟨previous, []⟩ = ⟨previous.masked, []⟩ from rfl] at added
    rw [added]
    cases addActions previous ⟨previous, []⟩ (sortActions actions) <;> rfl

end Script
end Tripwire
