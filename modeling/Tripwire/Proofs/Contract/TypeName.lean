import Tripwire.Contract.ParamType
import Tripwire.Proofs.Contract.Integer

namespace Tripwire.Contract

variable {c : Char} {d n limit start : Nat} {text : List Char} {type : ParamType}

inductive Width : List Char → Nat → Prop
  | plain {digits n} : digits ≠ [] → Numeral 10 digits n → Width digits n
  | plus {digits n} : digits ≠ [] → Numeral 10 digits n → Width ('+' :: digits) n

theorem decimalDigit?_of_ascii : ∀ code : Fin 128, ∀ d : Fin 10,
    Text.Numeral.digit? (Char.ofNat code) = some d.val ↔
      (Char.ofNat code).toLower = Text.Hex.digit d := by
  decide +kernel

theorem bounds_of_decimalDigit? (read : Text.Numeral.digit? c = some d) : d < 10 ∧ c.toNat < 128 := by
  unfold Text.Numeral.digit? at read
  split at read
  · rename_i range
    have most : c.toNat ≤ 57 := UInt32.le_iff_toNat_le.mp range.2
    have same : c.toNat - 48 = d := Option.some.inj read
    omega
  · cases read

theorem decimalDigit?_eq_some_iff :
    Text.Numeral.digit? c = some d ↔ d < 10 ∧ c.toLower = Text.Hex.digit d := by
  have ascii_iff (small : d < 10) (ascii : c.toNat < 128) :
      Text.Numeral.digit? c = some d ↔ c.toLower = Text.Hex.digit d := by
    have same := decimalDigit?_of_ascii ⟨c.toNat, ascii⟩ ⟨d, small⟩
    rwa [Char.ofNat_toNat] at same
  constructor
  · intro read
    obtain ⟨small, ascii⟩ := bounds_of_decimalDigit? read
    exact ⟨small, (ascii_iff small ascii).mp read⟩
  · rintro ⟨small, letter⟩
    exact (ascii_iff small (Text.Hex.ascii_of_digit (by omega) letter)).mpr letter

theorem readDecimals_eq_ok_iff : Text.Numeral.readDigits limit start text = .ok n ↔
    ∃ digits : List Nat, (∀ d ∈ digits, d < 10) ∧ text.map Char.toLower = digits.map Text.Hex.digit ∧
      digits.foldl (10 * · + ·) start = n ∧ (text = [] ∨ n ≤ limit) := by
  induction text generalizing start with
  | nil =>
      constructor
      · intro ok
        cases ok
        exact ⟨[], by simp, rfl, rfl, .inl rfl⟩
      · rintro ⟨digits, -, none, worth, -⟩
        rw [List.map_eq_nil_iff.mp none.symm] at worth
        rw [Text.Numeral.readDigits, ← worth, List.foldl_nil]
  | cons c text ih =>
      constructor
      · intro ok
        rw [Text.Numeral.readDigits] at ok
        split at ok
        case h_1 => cases ok
        case h_2 d read =>
          obtain ⟨small, letter⟩ := decimalDigit?_eq_some_iff.mp read
          split at ok
          case isFalse => cases ok
          case isTrue within =>
            obtain ⟨digits, below, letters, worth, least⟩ := ih.mp ok
            refine ⟨d :: digits, List.forall_mem_cons.mpr ⟨small, below⟩, ?_, worth, .inr ?_⟩
            · rw [List.map_cons, List.map_cons, letter, letters]
            · rcases least with rfl | least
              · cases ok
                exact within
              · exact least
      · rintro ⟨digits, below, letters, worth, least⟩
        cases digits with
        | nil => cases letters
        | cons d digits =>
            obtain ⟨letter, letters⟩ := List.cons.inj letters
            obtain ⟨small, below⟩ := List.forall_mem_cons.mp below
            have least : n ≤ limit := least.resolve_left (List.cons_ne_nil _ _)
            have grows : 10 * start + d ≤ n := worth ▸ Word.le_foldl digits (by decide)
            rw [Text.Numeral.readDigits, decimalDigit?_eq_some_iff.mpr ⟨small, letter⟩]
            simp only [if_pos (Nat.le_trans grows least)]
            exact ih.mpr ⟨digits, below, letters, worth, .inr least⟩

theorem not_numeral_of_plus : ¬Numeral 10 ('+' :: text) n := by
  intro spells
  have none : ∀ d : Fin 16, '+'.toLower ≠ Text.Hex.digit d := by decide
  obtain ⟨d, same⟩ := spells.digit (by decide) List.mem_cons_self
  exact none d same

theorem readDecimals_iff_of_ne_nil (some : text ≠ []) :
    Text.Numeral.readDigits limit 0 text = .ok n ↔ Numeral 10 text n ∧ n ≤ limit := by
  rw [readDecimals_eq_ok_iff]
  constructor
  · rintro ⟨digits, below, letters, worth, least⟩
    exact ⟨⟨digits, below, letters, worth⟩, least.resolve_left some⟩
  · rintro ⟨⟨digits, below, letters, worth⟩, least⟩
    exact ⟨digits, below, letters, worth, .inr least⟩

theorem width_iff_of_ne_plus (unsigned : ∀ digits, text ≠ '+' :: digits) :
    Width text n ↔ text ≠ [] ∧ Numeral 10 text n := by
  constructor
  · intro width
    cases width with
    | plain some spells => exact ⟨some, spells⟩
    | plus => exact absurd rfl (unsigned _)
  · rintro ⟨some, spells⟩
    exact .plain some spells

theorem width_plus_iff : Width ('+' :: text) n ↔ text ≠ [] ∧ Numeral 10 text n := by
  constructor
  · intro width
    cases width with
    | plain _ spells => exact absurd spells not_numeral_of_plus
    | plus some spells => exact ⟨some, spells⟩
  · rintro ⟨some, spells⟩
    exact .plus some spells

theorem readNumeral_eq_ok_iff :
    Text.Numeral.read limit text = .ok n ↔ Width text n ∧ n ≤ limit := by
  unfold Text.Numeral.read
  split
  · simp [width_iff_of_ne_plus]
  · simp [width_plus_iff]
  · rename_i digits unsigned
    have some : digits ≠ [] := by rintro rfl; exact unsigned rfl
    rw [readDecimals_iff_of_ne_nil some, width_plus_iff, and_iff_right some]
  · rename_i some lone unsigned
    rw [readDecimals_iff_of_ne_nil some, width_iff_of_ne_plus unsigned, and_iff_right some]

/-- The names that are accepted for a type. -/
inductive Spells (name : List Char) : ParamType → Prop
  | address : name = "address".toList → Spells name .address
  | bool : name = "bool".toList → Spells name .bool
  | string : name = "string".toList → Spells name .string
  | bytes : name = "bytes".toList → Spells name .bytes
  | wholeUint : name = "uint".toList → Spells name (.uint 256)
  | wholeInt : name = "int".toList → Spells name (.int 256)
  | uint {width bits} : name = "uint".toList ++ width → Width width bits → bits % 8 = 0 → 8 ≤ bits →
      bits ≤ 256 → Spells name (.uint bits)
  | int {width bits} : name = "int".toList ++ width → Width width bits → bits % 8 = 0 → 8 ≤ bits →
      bits ≤ 256 → Spells name (.int bits)
  | fixedBytes {width size} : name = "bytes".toList ++ width → Width width size → 1 ≤ size →
      size ≤ 32 → Spells name (.fixedBytes size)

theorem Width.ne_nil (width : Width text n) : text ≠ [] := by
  cases width with
  | plain some => exact some
  | plus => exact List.cons_ne_nil _ _

theorem readWithin_eq_some_iff {P : Nat → Prop} [DecidablePred P] (least : P n → n ≤ limit) :
    (match Text.Numeral.read limit text with
      | .ok read => if P read then some read else none
      | .error _ => none) = some n ↔ Width text n ∧ P n := by
  constructor
  · intro read
    split at read
    · rename_i m ok
      obtain ⟨holds, same⟩ := Option.ite_none_right_eq_some.mp read
      cases same
      exact ⟨(readNumeral_eq_ok_iff.mp ok).1, holds⟩
    · cases read
  · rintro ⟨width, holds⟩
    simp only [readNumeral_eq_ok_iff.mpr ⟨width, least holds⟩, if_pos holds]

theorem readBits?_eq_some_iff :
    ParamType.readBits? text = some n ↔ Width text n ∧ n % 8 = 0 ∧ 8 ≤ n ∧ n ≤ 256 :=
  readWithin_eq_some_iff fun bounds => Nat.le_trans bounds.2.2 (by decide)

theorem readSize?_eq_some_iff :
    ParamType.readSize? text = some n ↔ Width text n ∧ 1 ≤ n ∧ n ≤ 32 :=
  readWithin_eq_some_iff fun bounds => Nat.le_trans bounds.2 (by decide)

theorem spells_of_readChars? (read : ParamType.readChars? text = some type) : Spells text type := by
  unfold ParamType.readChars? at read
  split at read
  · cases read
    exact .address rfl
  · cases read
    exact .bool rfl
  · cases read
    exact .string rfl
  · cases read
    exact .bytes rfl
  · cases read
    exact .wholeUint rfl
  · cases read
    exact .wholeInt rfl
  · obtain ⟨bits, within, rfl⟩ := Option.map_eq_some_iff.mp read
    obtain ⟨width, multiple, least, most⟩ := readBits?_eq_some_iff.mp within
    exact .uint rfl width multiple least most
  · obtain ⟨bits, within, rfl⟩ := Option.map_eq_some_iff.mp read
    obtain ⟨width, multiple, least, most⟩ := readBits?_eq_some_iff.mp within
    exact .int rfl width multiple least most
  · obtain ⟨size, within, rfl⟩ := Option.map_eq_some_iff.mp read
    obtain ⟨width, least, most⟩ := readSize?_eq_some_iff.mp within
    exact .fixedBytes rfl width least most
  · cases read

theorem readChars?_of_spells (spells : Spells text type) : ParamType.readChars? text = some type := by
  cases spells with
  | address name | bool name | string name | bytes name | wholeUint name | wholeInt name =>
      subst name
      rfl
  | uint name width multiple least most | int name width multiple least most =>
      obtain ⟨c, rest, rfl⟩ := List.exists_cons_of_ne_nil width.ne_nil
      subst name
      exact Option.map_eq_some_iff.mpr
        ⟨_, readBits?_eq_some_iff.mpr ⟨width, multiple, least, most⟩, rfl⟩
  | fixedBytes name width least most =>
      obtain ⟨c, rest, rfl⟩ := List.exists_cons_of_ne_nil width.ne_nil
      subst name
      exact Option.map_eq_some_iff.mpr ⟨_, readSize?_eq_some_iff.mpr ⟨width, least, most⟩, rfl⟩

theorem read?_eq_some_iff {name : String} :
    ParamType.read? name = some type ↔ Spells name.toList type :=
  ⟨spells_of_readChars?, readChars?_of_spells⟩

instance (name : List Char) (type : ParamType) : Decidable (Spells name type) :=
  decidable_of_iff (ParamType.readChars? name = some type) ⟨spells_of_readChars?, readChars?_of_spells⟩

end Tripwire.Contract
