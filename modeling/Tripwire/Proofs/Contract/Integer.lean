import Tripwire.Contract.Call
import Tripwire.Proofs.Contract.Word
import Tripwire.Proofs.Text.Hex

namespace Tripwire.Contract

theorem map_eq_ok_iff {ε α β : Type} {f : α → β} {x : Except ε α} {b : β} :
    x.map f = .ok b ↔ ∃ a, x = .ok a ∧ f a = b := by
  cases x <;> simp [Except.map]

theorem map_eq_error_iff {ε α β : Type} {f : α → β} {x : Except ε α} {e : ε} :
    x.map f = .error e ↔ x = .error e := by
  cases x <;> simp [Except.map]

theorem bind_eq_ok_iff {ε α β : Type} {f : α → Except ε β} {x : Except ε α} {b : β} :
    x.bind f = .ok b ↔ ∃ a, x = .ok a ∧ f a = .ok b := by
  cases x <;> simp [Except.bind]

theorem mapError_eq_ok_iff {ε ε' α : Type} {f : ε → ε'} {x : Except ε α} {a : α} :
    x.mapError f = .ok a ↔ x = .ok a := by
  cases x <;> simp [Except.mapError]

def Numeral (base : Nat) (text : List Char) (n : Nat) : Prop :=
  ∃ digits : List Nat, (∀ d ∈ digits, d < base) ∧
    text.map Char.toLower = digits.map Text.Hex.digit ∧ digits.foldl (base * · + ·) 0 = n

namespace Word

variable {base d : UInt32} {c : Char} {text : List Char} {w next : Word}

theorem digit?_of_ascii : ∀ code : Fin 128, ∀ d : Fin 16,
    digit? 16 (Char.ofNat code) = some (UInt32.ofNat d) ↔
      (Char.ofNat code).toLower = Text.Hex.digit d := by
  decide +kernel

theorem digit?_eq_filter (small : base ≤ 16) : digit? base c = (digit? 16 c).filter (· < base) := by
  have both (d : UInt32) : (decide (d < 16) && decide (d < base)) = decide (d < base) := by
    rw [Bool.and_eq_right_iff_imp, decide_eq_true_iff, decide_eq_true_iff]
    exact fun less => UInt32.lt_of_lt_of_le less small
  simp [digit?, Option.filter_filter, both]

theorem ascii_of_digit? (read : digit? base c = some d) : c.toNat < 128 := by
  have bounded {last : Char} (before : c ≤ last) (ascii : last.toNat < 128) : c.toNat < 128 :=
    Nat.lt_of_le_of_lt (UInt32.le_iff_toNat_le.mp before) ascii
  obtain ⟨ranged, -⟩ := Option.filter_eq_some_iff.mp read
  split at ranged
  · rename_i range
    exact bounded range.2 (by decide)
  · split at ranged
    · rename_i range
      exact bounded range.2 (by decide)
    · split at ranged
      · rename_i range
        exact bounded range.2 (by decide)
      · cases ranged

theorem digit?_eq_some_iff (small : base ≤ 16) :
    digit? base c = some d ↔ d < base ∧ c.toLower = Text.Hex.digit d.toNat := by
  have bounded (less : d < base) : d.toNat < 16 :=
    UInt32.lt_iff_toNat_lt.mp (UInt32.lt_of_lt_of_le less small)
  have sixteen (less : d < base) (ascii : c.toNat < 128) :
      digit? 16 c = some d ↔ c.toLower = Text.Hex.digit d.toNat := by
    have same := digit?_of_ascii ⟨c.toNat, ascii⟩ ⟨d.toNat, bounded less⟩
    rwa [Char.ofNat_toNat, UInt32.ofNat_toNat] at same
  rw [digit?_eq_filter small, Option.filter_eq_some_iff, decide_eq_true_iff]
  constructor
  · rintro ⟨read, less⟩
    exact ⟨less, (sixteen less (ascii_of_digit? read)).mp read⟩
  · rintro ⟨less, same⟩
    have ascii : c.toNat < 128 := Text.Hex.ascii_of_digit (bounded less) same
    exact ⟨(sixteen less ascii).mpr same, less⟩

theorem le_foldl (digits : List Nat) {base start : Nat} (positive : 0 < base) :
    start ≤ digits.foldl (base * · + ·) start := by
  induction digits generalizing start with
  | nil => exact Nat.le_refl start
  | cons d digits ih =>
      calc start ≤ base * start := Nat.le_mul_of_pos_left start positive
        _ ≤ base * start + d := Nat.le_add_right _ d
        _ ≤ (d :: digits).foldl (base * · + ·) start := ih

theorem mulAdd_eq_false_iff (small : base ≤ 16) (less : d < base) :
    w.mulAdd base d = (next, false) ↔ base.toNat * w.toNat + d.toNat = next.toNat := by
  have base16 : base.toNat ≤ 16 := UInt32.le_iff_toNat_le.mp small
  have dBase : d.toNat < base.toNat := UInt32.lt_iff_toNat_lt.mp less
  obtain ⟨worth, carries⟩ := mulAdd_eq (show base.toNat ≤ 2 ^ 16 by omega)
    (show d.toNat ≤ 2 ^ 16 by omega) w
  rw [Nat.mul_comm w.toNat] at worth carries
  constructor
  · intro added
    have within : ¬2 ^ 256 ≤ base.toNat * w.toNat + d.toNat := by
      rw [← carries, added]
      exact Bool.false_ne_true
    rw [added, Nat.mod_eq_of_lt (Nat.lt_of_not_le within)] at worth
    exact worth.symm
  · intro same
    rw [same] at worth carries
    have below := toNat_lt next
    rw [Nat.mod_eq_of_lt below] at worth
    have still : (w.mulAdd base d).2 = false := by
      rw [Bool.eq_false_iff]
      exact fun carried => Nat.not_le.mpr below (carries.mp carried)
    exact Prod.ext (toNat_injective worth) still

theorem readDigits_eq_ok_iff (small : base ≤ 16) :
    readDigits base w text = .ok next ↔
      ∃ digits : List Nat, (∀ d ∈ digits, d < base.toNat) ∧
        text.map Char.toLower = digits.map Text.Hex.digit ∧
        digits.foldl (base.toNat * · + ·) w.toNat = next.toNat := by
  -- The word is filled up in place, so what counts for the digits left is the number before them.
  induction text generalizing w with
  | nil =>
      constructor
      · intro ok
        cases ok
        exact ⟨[], by simp, rfl, rfl⟩
      · rintro ⟨digits, -, none, worth⟩
        rw [List.map_eq_nil_iff.mp none.symm] at worth
        rw [toNat_injective worth]
        rfl
  | cons c text ih =>
      constructor
      · intro ok
        rw [readDigits] at ok
        split at ok
        case h_1 => cases ok
        case h_2 d read =>
          obtain ⟨less, letter⟩ := (digit?_eq_some_iff small).mp read
          split at ok
          case h_1 => cases ok
          case h_2 further added =>
            obtain ⟨digits, below, letters, worth⟩ := ih.mp ok
            rw [← (mulAdd_eq_false_iff small less).mp added] at worth
            refine ⟨d.toNat :: digits, ?_, ?_, worth⟩
            · exact List.forall_mem_cons.mpr ⟨UInt32.lt_iff_toNat_lt.mp less, below⟩
            · rw [List.map_cons, List.map_cons, letter, letters]
      · rintro ⟨digits, below, letters, worth⟩
        cases digits with
        | nil => cases letters
        | cons d digits =>
            obtain ⟨letter, letters⟩ := List.cons.inj letters
            obtain ⟨least, below⟩ := List.forall_mem_cons.mp below
            have base16 : base.toNat ≤ 16 := UInt32.le_iff_toNat_le.mp small
            have digit : (UInt32.ofNat d).toNat = d := by
              rw [UInt32.toNat_ofNat']
              omega
            have less : UInt32.ofNat d < base := by rwa [UInt32.lt_iff_toNat_lt, digit]
            have read : digit? base c = some (UInt32.ofNat d) :=
              (digit?_eq_some_iff small).mpr ⟨less, by rw [digit, letter]⟩
            have grows : base.toNat * w.toNat + d ≤ next.toNat :=
              Nat.le_trans (le_foldl digits (by omega)) (Nat.le_of_eq worth)
            have further : (ofNat (base.toNat * w.toNat + d)).toNat = base.toNat * w.toNat + d :=
              toNat_ofNat (Nat.lt_of_le_of_lt grows (toNat_lt next))
            have added : w.mulAdd base (UInt32.ofNat d) =
                (ofNat (base.toNat * w.toNat + d), false) :=
              (mulAdd_eq_false_iff small less).mpr (by rw [digit, further])
            rw [readDigits, read]
            simp only [added]
            exact ih.mpr ⟨digits, below, letters, by rw [further]; exact worth⟩

theorem read_eq_ok_iff (small : base ≤ 16) :
    read base text = .ok w ↔ text ≠ [] ∧ Numeral base.toNat text w.toNat := by
  rw [read]
  split
  · rename_i empty
    simp [List.isEmpty_iff.mp empty]
  · rename_i some
    rw [readDigits_eq_ok_iff small, toNat_zero]
    exact (and_iff_right fun none => some (List.isEmpty_iff.mpr none)).symm

end Word

inductive Magnitude : List Char → Nat → Prop
  | decimal {text n} : text ≠ [] → Numeral 10 text n → Magnitude text n
  | hex {digits n} : digits ≠ [] → Numeral 16 digits n → Magnitude ('0' :: 'x' :: digits) n

/-- The integers that an argument may stand for. A text has one minus sign at most. -/
inductive Integer : Value → Int → Prop
  | number {n} : Integer (.int n) n
  | text {s n} : Magnitude s.toList n → Integer (.str s) n
  | minus {s digits n} : s.toList = '-' :: digits → Magnitude digits n → Integer (.str s) (-n)

variable {base n : Nat} {text digits : List Char} {arg : Value} {w : Word} {negative : Bool}

theorem Numeral.digit {c : Char} (spells : Numeral base text n) (small : base ≤ 16)
    (among : c ∈ text) : ∃ d : Fin 16, c.toLower = Text.Hex.digit d := by
  obtain ⟨digits, below, letters, -⟩ := spells
  have lower : c.toLower ∈ digits.map Text.Hex.digit := letters ▸ List.mem_map_of_mem among
  obtain ⟨d, present, same⟩ := List.mem_map.mp lower
  exact ⟨⟨d, Nat.lt_of_lt_of_le (below d present) small⟩, same.symm⟩

theorem not_decimal_of_marked : ¬Numeral 10 ('0' :: 'x' :: digits) n := by
  intro spells
  obtain ⟨d, same⟩ := spells.digit (by decide) (show 'x' ∈ _ by simp)
  exact Text.Hex.mark_ne_digit d same

theorem not_magnitude_of_minus : ¬Magnitude ('-' :: digits) n := by
  intro magnitude
  have none : ∀ d : Fin 16, '-'.toLower ≠ Text.Hex.digit d := by decide
  cases magnitude with
  | decimal some spells =>
      obtain ⟨d, same⟩ := spells.digit (by decide) (show '-' ∈ _ by simp)
      exact none d same

theorem readMagnitude_eq_ok_iff : readMagnitude text = .ok w ↔ Magnitude text w.toNat := by
  unfold readMagnitude
  split
  · rename_i hex
    rw [Word.read_eq_ok_iff (by decide)]
    constructor
    · rintro ⟨some, spells⟩
      exact .hex some spells
    · intro magnitude
      cases magnitude with
      | decimal some spells => exact absurd spells not_decimal_of_marked
      | hex some spells => exact ⟨some, spells⟩
  · rename_i unmarked
    rw [Word.read_eq_ok_iff (by decide)]
    constructor
    · rintro ⟨some, spells⟩
      exact .decimal some spells
    · intro magnitude
      cases magnitude with
      | decimal some spells => exact ⟨some, spells⟩
      | hex some spells => exact absurd rfl (unmarked _)

theorem readMagnitude_of_magnitude (magnitude : Magnitude text n) (within : n < 2 ^ 256) :
    readMagnitude text = .ok (Word.ofNat n) := by
  rw [readMagnitude_eq_ok_iff, Word.toNat_ofNat within]
  exact magnitude

def signed (negative : Bool) (n : Nat) : Int := if negative then -n else n

theorem signed_natAbs (n : Int) : signed (n < 0) n.natAbs = n := by
  rw [signed]
  split
  · rename_i below
    have below := of_decide_eq_true below
    omega
  · rename_i above
    have above : ¬n < 0 := fun below => above (decide_eq_true below)
    omega

def Held : Value → Prop
  | .int n => n.natAbs < 2 ^ 256
  | _ => True

theorem integer_of_readInteger (held : Held arg) (ok : readInteger arg = .ok (negative, w)) :
    Integer arg (signed negative w.toNat) := by
  cases arg with
  | int n =>
      obtain ⟨sign, word⟩ := Prod.mk.inj (Except.ok.inj ok)
      have worth : w.toNat = n.natAbs := word ▸ Word.toNat_ofNat held
      rw [← sign, worth, signed_natAbs]
      exact .number
  | str s =>
      unfold readInteger at ok
      dsimp only at ok
      split at ok
      · rename_i digits minus
        obtain ⟨magnitude, read, same⟩ := map_eq_ok_iff.mp ok
        obtain ⟨rfl, rfl⟩ := Prod.mk.inj same
        exact .minus minus (readMagnitude_eq_ok_iff.mp read)
      · obtain ⟨magnitude, read, same⟩ := map_eq_ok_iff.mp ok
        obtain ⟨rfl, rfl⟩ := Prod.mk.inj same
        exact .text (readMagnitude_eq_ok_iff.mp read)
  | _ => cases ok

theorem readInteger_of_integer {n : Int} (integer : Integer arg n) (within : n.natAbs < 2 ^ 256) :
    ∃ negative w, readInteger arg = .ok (negative, w) ∧ w.toNat = n.natAbs ∧
      signed negative n.natAbs = n := by
  cases integer with
  | number => exact ⟨_, _, rfl, Word.toNat_ofNat within, signed_natAbs n⟩
  | @text s n magnitude =>
      refine ⟨false, Word.ofNat n, ?_, Word.toNat_ofNat within, rfl⟩
      unfold readInteger
      dsimp only
      split
      · rename_i digits minus
        exact absurd (minus ▸ magnitude) not_magnitude_of_minus
      · rw [readMagnitude_of_magnitude magnitude within]
        rfl
  | @minus s digits n minus magnitude =>
      rw [Int.natAbs_neg] at within ⊢
      refine ⟨true, Word.ofNat n, ?_, Word.toNat_ofNat within, rfl⟩
      simp [readInteger, minus, readMagnitude_of_magnitude magnitude within, Except.map]

end Tripwire.Contract
