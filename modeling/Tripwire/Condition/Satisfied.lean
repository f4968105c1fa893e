/-!
# Satisfied conditions

Conditions are numbered from one in the order of their registration. The satisfied ones are held as
an ascending list without repetitions.
-/
namespace Tripwire.Condition

def idLimit : Nat := Nat.pow 2 32 - 1

def idOf (index : Nat) : Nat := min (index + 1) idLimit

def idsOf (count : Nat) : List Nat := (List.range count).map idOf

def insertId (id : Nat) : List Nat → List Nat
  | [] => [id]
  | i :: rest => if id < i then id :: i :: rest else if id = i then i :: rest else i :: insertId id rest

theorem mem_insertId {id x : Nat} {ids : List Nat} :
    x ∈ insertId id ids ↔ x = id ∨ x ∈ ids := by
  induction ids with
  | nil => simp [insertId]
  | cons i rest ih =>
      simp only [insertId]
      split
      · simp
      · split
        · simp_all
        · simp only [List.mem_cons, ih]
          constructor
          · rintro (h | h | h) <;> simp [h]
          · rintro (h | h | h) <;> simp [h]

theorem pairwise_insertId {id : Nat} {ids : List Nat} (h : ids.Pairwise (· < ·)) :
    (insertId id ids).Pairwise (· < ·) := by
  induction ids with
  | nil => simp [insertId]
  | cons i rest ih =>
      have ⟨first, others⟩ := List.pairwise_cons.mp h
      simp only [insertId]
      split
      case isTrue lower =>
        refine List.pairwise_cons.mpr ⟨?_, h⟩
        intro x hx
        rcases List.mem_cons.mp hx with rfl | hx
        · exact lower
        · exact Nat.lt_trans lower (first x hx)
      case isFalse =>
        split
        · exact h
        · refine List.pairwise_cons.mpr ⟨?_, ih others⟩
          intro x hx
          rcases mem_insertId.mp hx with rfl | hx
          · omega
          · exact first x hx

structure Satisfied where
  ids : List Nat
  ascending : ids.Pairwise (· < ·)
  deriving DecidableEq

namespace Satisfied

def empty : Satisfied := ⟨[], .nil⟩

instance : Inhabited Satisfied := ⟨empty⟩

instance : Membership Nat Satisfied := ⟨fun s id => id ∈ s.ids⟩

instance (id : Nat) (s : Satisfied) : Decidable (id ∈ s) :=
  inferInstanceAs (Decidable (id ∈ s.ids))

def size (s : Satisfied) : Nat := s.ids.length

def insert (s : Satisfied) (id : Nat) : Satisfied :=
  ⟨insertId id s.ids, pairwise_insertId s.ascending⟩

def erase (s : Satisfied) (id : Nat) : Satisfied :=
  ⟨s.ids.filter (· ≠ id), s.ascending.filter _⟩

theorem mem_def {s : Satisfied} {id : Nat} : id ∈ s ↔ id ∈ s.ids := Iff.rfl

@[simp] theorem not_mem_empty (id : Nat) : id ∉ empty := by
  simp [mem_def, empty]

@[simp] theorem mem_insert {s : Satisfied} {id x : Nat} : x ∈ s.insert id ↔ x = id ∨ x ∈ s :=
  mem_insertId

@[simp] theorem mem_erase {s : Satisfied} {id x : Nat} : x ∈ s.erase id ↔ x ∈ s ∧ x ≠ id := by
  simp [mem_def, erase]

end Satisfied
end Tripwire.Condition
