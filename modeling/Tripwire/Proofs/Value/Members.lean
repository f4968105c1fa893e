import Mathlib.Data.List.Forall2
import Mathlib.Logic.Relation
import Tripwire.Form
import Tripwire.Proofs.Value.Fields

namespace Tripwire

variable {name : String} {fields fields' : List (String × Value)}

theorem Value.lookup_perm (distinct : (fields.map Prod.fst).Nodup) (perm : fields.Perm fields') :
    fields.lookup name = fields'.lookup name := by
  induction perm with
  | nil => rfl
  | cons field _ ih =>
      obtain ⟨k, v⟩ := field
      rw [List.lookup_cons, List.lookup_cons, ih (List.nodup_cons.mp distinct).2]
  | swap first second rest =>
      obtain ⟨k, v⟩ := first
      obtain ⟨l, w⟩ := second
      have apart : l ≠ k := by
        rintro rfl
        simp at distinct
      simp only [List.lookup_cons]
      by_cases here : name = k
      · rw [here, beq_self_eq_true, beq_false_of_ne apart.symm]
      · rw [beq_false_of_ne here]
  | trans first _ ih ih' =>
      exact (ih distinct).trans (ih' ((first.map Prod.fst).nodup_iff.mp distinct))

theorem Value.insertField_perm {value : Value} (fresh : name ∉ fields.map Prod.fst) :
    (insertField name value fields).Perm ((name, value) :: fields) := by
  fun_induction insertField name value fields with
  | case1 | case2 => exact .refl _
  | case3 => exact absurd List.mem_cons_self fresh
  | case4 k v rest unordered apart ih =>
      have fresh : name ∉ rest.map Prod.fst := fun member => fresh (List.mem_cons_of_mem _ member)
      exact ((ih fresh).cons (k, v)).trans (.swap ..)

theorem Value.sortFields_perm (distinct : (fields.map Prod.fst).Nodup) :
    (sortFields fields).Perm fields := by
  induction fields using List.reverseRecOn with
  | nil => exact .refl _
  | append_singleton fields field ih =>
      rw [List.map_append, List.nodup_append] at distinct
      obtain ⟨distinct, -, apart⟩ := distinct
      have fresh : field.1 ∉ (sortFields fields).map Prod.fst := fun member =>
        apart _ (mem_names_sortFields member) field.1 (List.mem_singleton_self _) rfl
      rw [sortFields_snoc]
      calc insertField field.1 field.2 (sortFields fields)
          _ |>.Perm (field :: sortFields fields) := insertField_perm fresh
          _ |>.Perm (field :: fields) := (ih distinct).cons field
          _ |>.Perm (fields ++ [field]) := (List.perm_append_singleton field fields).symm

namespace Form

variable {α : Type} {known required optionals : List String} {read : Value → Option α}

/-- One liberty that is taken with the members of a record: to write them in another order, to leave an
unknown one out, or an optional one that is null. -/
inductive Liberty (known optionals : List String) :
    List (String × Value) → List (String × Value) → Prop where
  | order {fields fields' : List (String × Value)} (distinct : (fields.map Prod.fst).Nodup)
      (perm : fields.Perm fields') : Liberty known optionals fields fields'
  | unknown {name : String} {fields : List (String × Value)} (value : Value)
      (foreign : name ∉ known) : Liberty known optionals ((name, value) :: fields) fields
  | null {name : String} {fields : List (String × Value)} (optional : name ∈ optionals)
      (absent : name ∉ fields.map Prod.fst) :
      Liberty known optionals ((name, .null) :: fields) fields

structure Agree (required optionals : List String) (fields fields' : List (String × Value)) : Prop where
  required : ∀ name ∈ required, fields.lookup name = fields'.lookup name
  optional : ∀ name ∈ optionals,
    (fields.lookup name).getD .null = (fields'.lookup name).getD .null

theorem lookup_cons_of_ne {k : String} {value : Value} (apart : name ≠ k) :
    ((k, value) :: fields).lookup name = fields.lookup name := by
  rw [List.lookup_cons, beq_false_of_ne apart]

theorem lookup_eq_none (absent : name ∉ fields.map Prod.fst) : fields.lookup name = none := by
  rw [List.lookup_eq_none_iff]
  intro field member
  rw [bne_iff_ne]
  rintro rfl
  exact absent (List.mem_map_of_mem member)

theorem Liberty.agree (required : List String) (liberty : Liberty known optionals fields fields')
    (among : ∀ name ∈ required ++ optionals, name ∈ known)
    (apart : ∀ name ∈ optionals, name ∉ required) : Agree required optionals fields fields' := by
  cases liberty with
  | order distinct perm =>
      have same {name : String} : fields.lookup name = fields'.lookup name :=
        Value.lookup_perm distinct perm
      exact ⟨fun _ _ => same, fun _ _ => by rw [same]⟩
  | @unknown other _ value foreign =>
      have same {name} (member : name ∈ required ++ optionals) :
          ((other, value) :: fields').lookup name = fields'.lookup name :=
        lookup_cons_of_ne (ne_of_mem_of_not_mem (among name member) foreign)
      exact ⟨fun _ member => same (List.mem_append_left _ member),
        fun _ member => by rw [same (List.mem_append_right _ member)]⟩
  | @null other _ optional absent =>
      constructor
      · intro name member
        exact lookup_cons_of_ne (ne_of_mem_of_not_mem member (apart other optional))
      · intro name member
        by_cases same : name = other
        · rw [same, List.lookup_cons, beq_self_eq_true, lookup_eq_none absent]
          rfl
        · rw [lookup_cons_of_ne same]

theorem eq_of_alike {β : Type} {r : Value → Value → Prop} {v v' : Value} {f : Value → β}
    (keeps : ∀ v v', r v v' → f v = f v') (alike : Relation.EqvGen r v v') : f v = f v' :=
  congrArg (Quot.lift f keeps) (Quot.eqvGen_sound alike)

theorem bind_record? (style : Style) (names : List String) (fields : List (String × Value))
    (rest : List (String × Value) → Option α) :
    (record? style names (.map fields) >>= rest) = rest fields := rfl

theorem optional_eq (fields : List (String × Value)) (name : String) (read : Value → Option α) :
    optional fields name read =
      match (fields.lookup name).getD .null with
      | .null => some none
      | v => (read v).map some := by
  unfold optional
  cases found : fields.lookup name with
  | none => rfl
  | some v => cases v <;> rfl

namespace Agree

variable (agree : Agree required optionals fields fields')
include agree

theorem required_eq (read : Value → Option α) (member : name ∈ required) :
    Form.required fields name read = Form.required fields' name read := by
  rw [Form.required, Form.required, agree.required name member]

theorem defaulted_eq (default : α) (read : Value → Option α) (member : name ∈ required) :
    defaulted fields name default read = defaulted fields' name default read := by
  rw [defaulted, defaulted, agree.required name member]

theorem optional_eq (read : Value → Option α) (member : name ∈ optionals) :
    Form.optional fields name read = Form.optional fields' name read := by
  rw [Form.optional_eq, Form.optional_eq, agree.optional name member]

end Agree

theorem lookup_field? {k : String} (write : α → Value) (a? : Option α) :
    (field? k write a?).lookup name = if name = k then a?.map write else none := by
  cases a? with
  | none => simp [field?]
  | some a =>
      by_cases same : name = k
      · simp [field?, same]
      · simp [field?, same, lookup_cons_of_ne]

theorem names_field? (k : String) (write : α → Value) (a? : Option α) :
    ((field? k write a?).map Prod.fst).Sublist [k] := by
  cases a? with
  | none => exact List.nil_sublist _
  | some a => exact .refl _

theorem optional_of_lookup (write : α → Value) {a? : Option α}
    (found : fields.lookup name = a?.map write)
    (reads : ∀ a ∈ a?, write a ≠ .null ∧ read (write a) = some a) :
    optional fields name read = some a? := by
  rw [optional_eq, found]
  cases a? with
  | none => rfl
  | some a =>
      obtain ⟨something, back⟩ := reads a rfl
      rw [Option.map_some, Option.getD_some]
      generalize write a = v at something back
      cases v with
      | null => contradiction
      | _ => exact congrArg (Option.map some) back

theorem natural_ofNat {limit n : Nat} (within : n < limit) :
    natural (limit - 1) (.ofNat n) = some n := by
  have same : (Value.ofNat n).nat? = some n := rfl
  rw [natural, same]
  exact if_pos (Nat.le_sub_one_of_lt within)

theorem u8_ofNat {n : Nat} (within : n < Nat.pow 2 8) : u8 (.ofNat n) = some n :=
  natural_ofNat within

theorem u32_ofNat {n : Nat} (within : n < Nat.pow 2 32) : u32 (.ofNat n) = some n :=
  natural_ofNat within

theorem u64_ofNat {n : Nat} (within : n < Nat.pow 2 64) : u64 (.ofNat n) = some n :=
  natural_ofNat within

theorem list_map {write : α → Value} {items : List α}
    (reads : ∀ a ∈ items, read (write a) = some a) :
    list read (.list (items.map write)) = some items := by
  unfold list
  induction items with
  | nil => rfl
  | cons a items ih =>
      obtain ⟨first, rest⟩ := List.forall_mem_cons.mp reads
      simp only at ih
      simp [first, ih rest]

theorem list_free (items : List Value) : list some (.list items) = some items := by
  calc list some (.list items) = list some (.list (items.map id)) := by rw [List.map_id]
    _ = some items := list_map fun _ _ => rfl

theorem list_congr {items items' : List Value} (alike : List.Forall₂ (read · = read ·) items items') :
    list read (.list items) = list read (.list items') := by
  unfold list
  induction alike with
  | nil => rfl
  | cons first _ ih =>
      simp only at ih
      simp [first, ih]

end Form
end Tripwire
