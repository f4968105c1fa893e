import Mathlib.Tactic.SplitIfs
import Tripwire.Value.Order

namespace Tripwire.Text

def units (c : Char) : List Nat :=
  if c.toNat < 0x10000 then [c.toNat]
  else [0xD800 + (c.toNat - 0x10000) / 0x400, 0xDC00 + (c.toNat - 0x10000) % 0x400]

def compareUnits (s t : String) : Ordering :=
  List.compareLex compare (s.toList.flatMap units) (t.toList.flatMap units)

def apart (c d : Char) : Bool :=
  (0xE000 ≤ c.toNat && c.toNat < 0x10000 && 0x10000 ≤ d.toNat) ||
    (0xE000 ≤ d.toNat && d.toNat < 0x10000 && 0x10000 ≤ c.toNat)

def crossed : List Char → List Char → Bool
  | c :: s, d :: t => if c = d then crossed s t else apart c d
  | _, _ => false

def rank (c : Char) : Nat :=
  if 0xE000 ≤ c.toNat ∧ c.toNat < 0x10000 then c.toNat + 0x110000 else c.toNat

theorem toNat_cases (c : Char) : c.toNat < 0xD800 ∨ 0xDFFF < c.toNat ∧ c.toNat < 0x110000 := c.valid

theorem compare_units (c d : Char) (s t : List Nat) :
    List.compareLex compare (units c ++ s) (units d ++ t) =
      (compare (rank c) (rank d)).then (List.compareLex compare s t) := by
  have left := toNat_cases c
  have right := toNat_cases d
  unfold units rank
  generalize c.toNat = n at left ⊢
  generalize d.toNat = m at right ⊢
  by_cases single : n < 0x10000 <;> by_cases single' : m < 0x10000
  all_goals
    simp only [single, single', if_true, if_false, and_true, and_false, List.cons_append,
      List.nil_append, List.compareLex_cons_cons, Nat.compare_eq_ite_lt]
    split_ifs <;> first | rfl | omega

abbrev compareNumbers (c d : Char) : Ordering := compare c.toNat d.toNat

theorem compareNumbers_eq_lt {c d : Char} : compareNumbers c d = .lt ↔ c < d := Nat.compare_eq_lt

theorem compareNumbers_eq_gt {c d : Char} : compareNumbers c d = .gt ↔ d < c := Nat.compare_eq_gt

theorem compareNumbers_self (c : Char) : compareNumbers c c = .eq := Nat.compare_eq_eq.mpr rfl

theorem compareText_eq (s t : String) :
    Value.compareText s t = List.compareLex compareNumbers s.toList t.toList := by
  have chars (xs ys : List Char) : (if xs < ys then Ordering.lt else if xs = ys then .eq else .gt) =
      List.compareLex compareNumbers xs ys := by
    induction xs generalizing ys with
    | nil => cases ys <;> rfl
    | cons c xs ih =>
        cases ys with
        | nil => rfl
        | cons d ys =>
            rw [List.compareLex_cons_cons, ← ih]
            rcases Nat.lt_trichotomy c.toNat d.toNat with below | same | above
            · have ordered : c :: xs < d :: ys := List.cons_lt_cons_iff.mpr (.inl below)
              rw [compareNumbers_eq_lt.mpr below, if_pos ordered]
              rfl
            · obtain rfl := Char.toNat_inj.mp same
              have same : c :: xs < c :: ys ↔ xs < ys := by simp
              simp only [compareNumbers_self, same, List.cons.injEq, true_and]
              rfl
            · have unordered : ¬c :: xs < d :: ys := by
                rw [List.cons_lt_cons_iff]
                rintro (below | ⟨rfl, -⟩)
                · exact Nat.lt_asymm below above
                · exact Nat.lt_irrefl _ above
              have differs : c :: xs ≠ d :: ys := by
                rintro ⟨⟩
                exact Nat.lt_irrefl _ above
              rw [compareNumbers_eq_gt.mpr above, if_neg unordered, if_neg differs]
              rfl
  rw [← chars, Value.compareText]
  simp only [String.lt_iff, String.toList_inj]

theorem compare_rank_iff (c d : Char) :
    compare (rank c) (rank d) = compareNumbers c d ↔ apart c d = false := by
  have left := toNat_cases c
  have right := toNat_cases d
  unfold rank apart compareNumbers
  generalize c.toNat = n at left ⊢
  generalize d.toNat = m at right ⊢
  rw [Nat.compare_eq_ite_lt, Nat.compare_eq_ite_lt]
  split_ifs <;> simp <;> omega

theorem rank_inj {c d : Char} : rank c = rank d ↔ c = d := by
  have left := toNat_cases c
  have right := toNat_cases d
  rw [← Char.toNat_inj]
  unfold rank
  split_ifs <;> omega

theorem then_of_ne {first second : Ordering} (decided : first ≠ .eq) : first.then second = first := by
  cases first with
  | eq => exact absurd rfl decided
  | lt | gt => rfl

theorem flatMap_units_cons (c : Char) (s : List Char) :
    ∃ unit rest, (c :: s).flatMap units = unit :: rest := by
  rw [List.flatMap_cons]
  unfold units
  split <;> exact ⟨_, _, rfl⟩

theorem compareLex_units_iff (s t : List Char) :
    List.compareLex compare (s.flatMap units) (t.flatMap units) = List.compareLex compareNumbers s t ↔
      crossed s t = false := by
  induction s generalizing t with
  | nil =>
      cases t with
      | nil => exact ⟨fun _ => rfl, fun _ => rfl⟩
      | cons d t =>
          obtain ⟨unit, rest, same⟩ := flatMap_units_cons d t
          rw [same]
          exact ⟨fun _ => rfl, fun _ => rfl⟩
  | cons c s ih =>
      cases t with
      | nil =>
          obtain ⟨unit, rest, same⟩ := flatMap_units_cons c s
          rw [same]
          exact ⟨fun _ => rfl, fun _ => rfl⟩
      | cons d t =>
          rw [List.flatMap_cons, List.flatMap_cons, compare_units, List.compareLex_cons_cons, crossed]
          by_cases same : c = d
          · subst same
            rw [compareNumbers_self, Nat.compare_eq_eq.mpr rfl, if_pos rfl]
            exact ih t
          · have ranks : compare (rank c) (rank d) ≠ .eq := fun equal =>
              same (rank_inj.mp (Nat.compare_eq_eq.mp equal))
            have numbers : compareNumbers c d ≠ .eq := fun equal =>
              same (Char.toNat_inj.mp (Nat.compare_eq_eq.mp equal))
            rw [if_neg same, then_of_ne ranks, then_of_ne numbers]
            exact compare_rank_iff c d

theorem compareUnits_eq_compareText_iff (s t : String) :
    compareUnits s t = Value.compareText s t ↔ crossed s.toList t.toList = false := by
  rw [compareText_eq]
  exact compareLex_units_iff s.toList t.toList

theorem compareUnits_eq_eq_iff (s t : String) : compareUnits s t = .eq ↔ s = t := by
  have chars (xs ys : List Char) :
      List.compareLex compare (xs.flatMap units) (ys.flatMap units) = .eq ↔ xs = ys := by
    induction xs generalizing ys with
    | nil =>
        cases ys with
        | nil => exact ⟨fun _ => rfl, fun _ => rfl⟩
        | cons d ys =>
            obtain ⟨unit, rest, same⟩ := flatMap_units_cons d ys
            rw [same]
            exact ⟨nofun, nofun⟩
    | cons c xs ih =>
        cases ys with
        | nil =>
            obtain ⟨unit, rest, same⟩ := flatMap_units_cons c xs
            rw [same]
            exact ⟨nofun, nofun⟩
        | cons d ys =>
            rw [List.flatMap_cons, List.flatMap_cons, compare_units, Ordering.then_eq_eq, ih,
              Nat.compare_eq_eq, rank_inj, List.cons.injEq]
  rw [compareUnits, chars, String.toList_inj]

end Tripwire.Text
