import Mathlib.Data.List.Induction
import Tripwire.Value.Basic

namespace Tripwire.Value

variable {name other : String} {value : Value} {fields : List (String × Value)}

theorem lookup_insertField (name other : String) (value : Value) (fields : List (String × Value)) :
    (insertField name value fields).lookup other =
      if other = name then some value else fields.lookup other := by
  by_cases same : other = name
  · subst same
    rw [if_pos rfl]
    fun_induction insertField other value fields with
    | case1 | case2 | case3 => rw [List.lookup_cons, beq_self_eq_true]
    | case4 k v rest unordered apart ih => rw [List.lookup_cons, beq_false_of_ne apart, ih]
  · rw [if_neg same]
    fun_induction insertField name value fields with
    | case1 | case2 | case3 => simp only [List.lookup_cons, beq_false_of_ne same]
    | case4 k v rest unordered apart ih => simp only [List.lookup_cons, ih]

theorem sortFields_snoc (fields : List (String × Value)) (field : String × Value) :
    sortFields (fields ++ [field]) = insertField field.1 field.2 (sortFields fields) :=
  List.foldl_append

theorem lookup_sortFields (name : String) (fields : List (String × Value)) :
    (sortFields fields).lookup name = fields.reverse.lookup name := by
  induction fields using List.reverseRecOn with
  | nil => rfl
  | append_singleton fields field ih =>
      rw [sortFields_snoc, lookup_insertField, ih, List.reverse_append, List.reverse_singleton,
        List.singleton_append, List.lookup_cons]
      by_cases same : name = field.1
      · rw [if_pos same, same, beq_self_eq_true]
      · rw [if_neg same, beq_false_of_ne same]

theorem mem_names_insertField (mem : other ∈ (insertField name value fields).map Prod.fst) :
    other = name ∨ other ∈ fields.map Prod.fst := by
  fun_induction insertField name value fields with
  | case1 => simpa using mem
  | case2 => simpa using mem
  | case3 => simpa using mem
  | case4 k v rest unordered apart ih =>
      rcases List.mem_cons.mp mem with rfl | later
      · exact .inr List.mem_cons_self
      · exact (ih later).imp_right (List.mem_cons_of_mem k)

theorem mem_names_sortFields (mem : name ∈ (sortFields fields).map Prod.fst) :
    name ∈ fields.map Prod.fst := by
  induction fields using List.reverseRecOn with
  | nil => exact mem
  | append_singleton fields field ih =>
      rw [sortFields_snoc] at mem
      rw [List.map_append, List.mem_append]
      rcases mem_names_insertField mem with rfl | earlier
      · exact .inr (List.mem_singleton_self _)
      · exact .inl (ih earlier)

abbrev Sorted (fields : List (String × Value)) : Prop := (fields.map Prod.fst).Pairwise (· < ·)

theorem lt_of_not_lt {name k : String} (unordered : ¬name < k) (apart : name ≠ k) : k < name := by
  apply Decidable.byContradiction
  intro unordered'
  exact apart (String.le_antisymm (String.not_lt.mp unordered') (String.not_lt.mp unordered))

theorem Sorted.insertField (name : String) (value : Value) (sorted : Sorted fields) :
    Sorted (insertField name value fields) := by
  fun_induction Value.insertField name value fields with
  | case1 => exact List.pairwise_singleton _ _
  | case2 k v rest before =>
      obtain ⟨later, -⟩ := List.pairwise_cons.mp sorted
      apply List.pairwise_cons.mpr ⟨?_, sorted⟩
      intro other mem
      rcases List.mem_cons.mp mem with rfl | mem
      · exact before
      · exact String.lt_trans before (later other mem)
  | case3 => exact sorted
  | case4 k v rest unordered apart ih =>
      obtain ⟨later, sorted⟩ := List.pairwise_cons.mp sorted
      apply List.pairwise_cons.mpr ⟨?_, ih sorted⟩
      intro other mem
      rcases mem_names_insertField mem with rfl | mem
      · exact lt_of_not_lt unordered apart
      · exact later other mem

theorem sorted_sortFields (fields : List (String × Value)) : Sorted (sortFields fields) := by
  induction fields using List.reverseRecOn with
  | nil => exact .nil
  | append_singleton fields field ih =>
      rw [sortFields_snoc]
      exact ih.insertField _ _

theorem Sorted.nodup (sorted : Sorted fields) : (fields.map Prod.fst).Nodup := by
  apply List.Pairwise.imp _ sorted
  rintro name other before rfl
  exact String.lt_irrefl name before

def mapValues (f : Value → Value) (fields : List (String × Value)) : List (String × Value) :=
  fields.map (Prod.map id f)

theorem insertField_mapValues (f : Value → Value) (name : String) (value : Value)
    (fields : List (String × Value)) :
    insertField name (f value) (mapValues f fields) = mapValues f (insertField name value fields) := by
  fun_induction insertField name value fields with
  | case1 => rfl
  | case2 k v rest before => simp [mapValues, insertField, before]
  | case3 v rest unordered => simp [mapValues, insertField]
  | case4 k v rest unordered apart ih =>
      simp only [mapValues, List.map_cons, Prod.map_apply, id_eq] at ih ⊢
      rw [insertField, if_neg unordered, if_neg apart, ih]

theorem sortFields_mapValues (f : Value → Value) (fields : List (String × Value)) :
    sortFields (mapValues f fields) = mapValues f (sortFields fields) := by
  induction fields using List.reverseRecOn with
  | nil => rfl
  | append_singleton fields field ih =>
      have snoc : mapValues f (fields ++ [field]) = mapValues f fields ++ [(field.1, f field.2)] :=
        List.map_append
      rw [snoc, sortFields_snoc, sortFields_snoc, ih, insertField_mapValues]

theorem names_mapValues (f : Value → Value) (fields : List (String × Value)) :
    (mapValues f fields).map Prod.fst = fields.map Prod.fst :=
  List.map_map

theorem lookup_mapValues (f : Value → Value) (name : String) (fields : List (String × Value)) :
    (mapValues f fields).lookup name = (fields.lookup name).map f := by
  induction fields with
  | nil => rfl
  | cons field fields ih =>
      obtain ⟨k, v⟩ := field
      show List.lookup name ((k, f v) :: mapValues f fields) = _
      rw [List.lookup_cons, List.lookup_cons, ih]
      cases name == k <;> rfl

end Tripwire.Value
