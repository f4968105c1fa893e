import Mathlib.Data.List.TakeWhile
import Tripwire.Proofs.Value.Text
import Tripwire.Value.Read

namespace Tripwire

theorem Text.ne_of_class {isIn : Char → Bool} {c d : Char} (here : isIn c) (apart : isIn d = false) :
    c ≠ d := by
  rintro rfl
  exact Bool.false_ne_true (apart.symm.trans here)

theorem Text.append_inj_of_class {isIn : Char → Bool} {u v s t : List Char} (left : ∀ c ∈ u, isIn c)
    (right : ∀ c ∈ v, isIn c) (ends : ∀ c ∈ s.head?, isIn c = false)
    (ends' : ∀ c ∈ t.head?, isIn c = false) (same : u ++ s = v ++ t) : u = v ∧ s = t := by
  have stops {rest : List Char} (ends : ∀ c ∈ rest.head?, isIn c = false) : rest.takeWhile isIn = [] := by
    cases rest with
    | nil => rfl
    | cons c rest => rw [List.takeWhile_cons_of_neg (by simp [ends c rfl])]
  have taken := congrArg (List.takeWhile isIn) same
  rw [List.takeWhile_append_of_pos left, List.takeWhile_append_of_pos right, stops ends, stops ends',
    List.append_nil, List.append_nil] at taken
  subst taken
  exact ⟨rfl, List.append_cancel_left same⟩

namespace Value

variable {before rest rest' s t : List Char} {c : Char}

theorem readString_inner (quotable : Quotable c) (printed : ¬c.toNat < 0x20) :
    readString before (c :: rest) = readString (c :: before) rest := by
  rw [readString, if_neg printed]
  · exact quotable.1
  all_goals
    intros
    exact absurd ‹c = '\\'› quotable.2

theorem readString_unit {a b d e : Char} {n : Nat} (read : Text.Hex.number? [a, b, d, e] = some n)
    (low : n < 0xD800) :
    readString before ('\\' :: 'u' :: a :: b :: d :: e :: rest) =
      readString (Char.ofNat n :: before) rest := by
  have valid : Text.Hex.character? n = some (Char.ofNat n) := if_pos (.inl low)
  have single : ¬0xD800 ≤ n := by omega
  rw [readString.eq_def]
  split
  case h_2 same =>
    simp only [List.cons.injEq, true_and] at same
    obtain ⟨rfl, rfl, rfl, rfl, rfl⟩ := same
    simp [read, single, valid]
  case h_3 same =>
    simp only [List.cons.injEq, true_and] at same
    obtain ⟨rfl, rfl, rfl, rfl, rfl⟩ := same
    simp [read, valid]
  case h_4 others same =>
    obtain ⟨-, rfl, rfl⟩ := same
    exact absurd rfl (others _ _ _ _ _ rfl)
  case h_5 others same =>
    obtain ⟨rfl, rfl⟩ := same
    exact absurd rfl (others _ _ rfl)
  all_goals simp_all

theorem number?_control : ∀ n < 0x20,
    Text.Hex.number? ['0', '0', Text.Hex.digit (n / 16), Text.Hex.digit (n % 16)] = some n := by
  decide

theorem readString_escapeChar (before : List Char) (c : Char) (rest : List Char) :
    readString before (escapeChar c ++ rest) = readString (c :: before) rest := by
  by_cases quote : c = '"'
  · subst quote
    simp [escapeChar, readString]
  by_cases backslash : c = '\\'
  · subst backslash
    simp [escapeChar, readString]
  rw [escapeChar, if_neg quote, if_neg backslash]
  iterate 5
    split
    · rename_i same
      simp [same, readString]
  split
  case isTrue control =>
    have low : c.toNat < 0xD800 := by omega
    rw [List.cons_append, List.cons_append, List.cons_append, List.cons_append, List.cons_append,
      List.cons_append, List.nil_append, readString_unit (number?_control c.toNat control) low,
      Char.ofNat_toNat]
  case isFalse printed => exact readString_inner ⟨quote, backslash⟩ printed

theorem readString_flatMap (before s rest : List Char) :
    readString before (s.flatMap escapeChar ++ '"' :: rest) =
      some (String.ofList (before.reverse ++ s), rest) := by
  induction s generalizing before with
  | nil => simp [readString]
  | cons c s ih => simp [List.flatMap_cons, List.append_assoc, readString_escapeChar, ih]

theorem literal_append_inj (same : literal s ++ rest = literal t ++ rest') : s = t ∧ rest = rest' := by
  have opened : s.flatMap escapeChar ++ '"' :: rest = t.flatMap escapeChar ++ '"' :: rest' := by
    simpa [literal] using same
  have read := congrArg (readString []) opened
  rw [readString_flatMap, readString_flatMap, Option.some.injEq, Prod.mk.injEq] at read
  exact ⟨String.ofList_inj.mp (by simpa using read.1), read.2⟩

theorem readValue_literal (fuel : Nat) (s : String) :
    readValue (fuel + 1) (literal s.toList) = some (.str s, []) := by
  have read := readString_flatMap [] s.toList []
  rw [List.reverse_nil, List.nil_append, String.ofList_toList] at read
  have opened : skipBlanks (literal s.toList) = '"' :: (s.toList.flatMap escapeChar ++ ['"']) := rfl
  rw [readValue.eq_def]
  simp only [opened, read, Option.map_some]

theorem read?_literal (s : String) : read? (String.ofList (literal s.toList)) = some (.str s) := by
  unfold read?
  simp only [String.toList_ofList, readValue_literal]
  rfl

end Value
end Tripwire
