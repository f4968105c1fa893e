import Tripwire.Proofs.Contract.Integer

namespace Tripwire.Contract

inductive Datum where
  | bytes (content : List UInt8)
  | flag (b : Bool)
  | number (n : Int)
  | text (s : String)
  deriving DecidableEq, Repr

inductive HexText : Value → List UInt8 → Prop
  | plain {s bytes} : Text.Hex.Spells s.toList bytes → HexText (.str s) bytes
  | marked {s digits bytes} : s.toList = '0' :: 'x' :: digits → Text.Hex.Spells digits bytes →
      HexText (.str s) bytes

/-- The datum of a type that an argument stands for. -/
inductive Denotes : ParamType → Value → Datum → Prop
  | address {arg bytes} : HexText arg bytes → bytes.length = 20 →
      Denotes .address arg (.bytes bytes)
  | flag {b} : Denotes .bool (.bool b) (.flag b)
  | yes : Denotes .bool (.str "true") (.flag true)
  | no : Denotes .bool (.str "false") (.flag false)
  | uint {bits arg n} : Integer arg n → 0 ≤ n → n < 2 ^ bits → Denotes (.uint bits) arg (.number n)
  | int {bits arg n} : Integer arg n → -2 ^ (bits - 1) ≤ n → n < 2 ^ (bits - 1) →
      Denotes (.int bits) arg (.number n)
  | fixedBytes {size arg bytes} : HexText arg bytes → bytes.length = size →
      Denotes (.fixedBytes size) arg (.bytes bytes)
  | bytes {arg bytes} : HexText arg bytes → Denotes .bytes arg (.bytes bytes)
  | string {s} : Denotes .string (.str s) (.text s)

def ParamType.Supported (type : ParamType) : Prop := ∃ name, ParamType.read? name = some type

variable {type : ParamType} {arg : Value} {d : Datum} {w : Word} {bytes : List UInt8}
variable {bits size : Nat} {digits : List Char} {negative : Bool}

theorem not_spells_of_marked : ¬Text.Hex.Spells ('0' :: 'x' :: digits) bytes := by
  intro spells
  obtain ⟨d, same⟩ := spells.digit (show 'x' ∈ _ by simp)
  exact Text.Hex.mark_ne_digit d same

theorem hexBytes_str (s : String) :
    hexBytes (.str s) = Except.mapError .hex (Text.Hex.read (Bytes.ofText (String.ofList
      (match s.toList with
        | '0' :: 'x' :: rest => rest
        | digits => digits)))) := by
  unfold hexBytes
  dsimp only
  split
  case h_1 read => exact (congrArg (Except.mapError ArgumentFault.hex) read).symm
  case h_2 read => exact (congrArg (Except.mapError ArgumentFault.hex) read).symm

theorem hexBytes_eq_ok_iff : hexBytes arg = .ok bytes ↔ HexText arg bytes := by
  cases arg with
  | str s =>
      rw [hexBytes_str, mapError_eq_ok_iff, Text.Hex.read_eq_ok_iff]
      split
      · rename_i digits mark
        constructor
        · exact .marked mark
        · intro hex
          cases hex with
          | plain spells => exact absurd (mark ▸ spells) not_spells_of_marked
          | marked mark' spells =>
              cases mark.symm.trans mark'
              exact spells
      · rename_i unmarked
        constructor
        · exact .plain
        · intro hex
          cases hex with
          | plain spells => exact spells
          | marked mark spells => exact absurd mark (unmarked _)
  | _ => exact iff_of_false (fun ok => by cases ok) (fun hex => by cases hex)

/-- The datum of a word. What a type leaves unused must be zeros, or copies of the sign. -/
def decodeWord? (type : ParamType) (w : Word) : Option Datum :=
  match type with
  | .address => if (w.bytes.take 12).all (· = 0) then some (.bytes (w.bytes.drop 12)) else none
  | .bool =>
      if w.toNat = 0 then some (.flag false)
      else if w.toNat = 1 then some (.flag true)
      else none
  | .uint bits => if w.toNat < 2 ^ bits then some (.number w.toNat) else none
  | .int bits =>
      if -2 ^ (bits - 1) ≤ w.toInt ∧ w.toInt < 2 ^ (bits - 1) then some (.number w.toInt) else none
  | .fixedBytes size =>
      if (w.bytes.drop size).all (· = 0) then some (.bytes (w.bytes.take size)) else none
  | .bytes | .string => none

namespace Word

theorem toInt_of_signed (within : w.toNat ≤ 2 ^ 255)
    (sign : negative = false → w.toNat < 2 ^ 255) :
    (if negative then w.negate else w).toInt = signed negative w.toNat := by
  cases negative with
  | false =>
      change w.toInt = w.toNat
      rw [toInt, if_pos (sign rfl)]
  | true =>
      rw [if_pos rfl, toInt, toNat_negate, signed, if_pos rfl]
      split <;> omega

theorem fits_iff (positive : 0 < bits) :
    (w.bitLength < bits || (negative && w.bitLength = bits && w.isPowerOfTwo)) = true ↔
      -2 ^ (bits - 1) ≤ signed negative w.toNat ∧ signed negative w.toNat < 2 ^ (bits - 1) := by
  have short : w.bitLength < bits ↔ w.toNat < 2 ^ (bits - 1) := by
    rw [← bitLength_le_iff]
    omega
  have full : w.bitLength = bits ∧ w.isPowerOfTwo = true ↔ w.toNat = 2 ^ (bits - 1) :=
    bitLength_eq_and_isPowerOfTwo_iff positive
  have power : ((2 ^ (bits - 1) : Nat) : Int) = 2 ^ (bits - 1) := by push_cast; rfl
  have positive := Nat.two_pow_pos (bits - 1)
  rw [← power]
  cases negative with
  | false =>
      simp only [Bool.false_and, Bool.or_false, decide_eq_true_eq, short, signed,
        Bool.false_eq_true, if_false]
      omega
  | true =>
      simp only [Bool.true_and, Bool.or_eq_true, Bool.and_eq_true, decide_eq_true_eq, short, full,
        signed, if_true]
      omega

end Word

theorem ParamType.Supported.bounds (supported : type.Supported) :
    match type with
    | .uint bits | .int bits => 8 ≤ bits ∧ bits ≤ 256
    | .fixedBytes size => size ≤ 32
    | _ => True := by
  have width {digits bits} (read : readBits? digits = some bits) : 8 ≤ bits ∧ bits ≤ 256 := by
    rw [readBits?] at read
    split at read
    · split at read
      · cases read
        omega
      · cases read
    · cases read
  have count {digits size} (read : readSize? digits = some size) : size ≤ 32 := by
    rw [readSize?] at read
    split at read
    · split at read
      · cases read
        omega
      · cases read
    · cases read
  obtain ⟨name, read⟩ := supported
  rw [read?] at read
  unfold readChars? at read
  split at read
  case h_5 | h_6 =>
    cases read
    exact ⟨by decide, Nat.le_refl 256⟩
  case h_7 | h_8 =>
    obtain ⟨bits, found, rfl⟩ := Option.map_eq_some_iff.mp read
    exact width found
  case h_9 =>
    obtain ⟨size, found, rfl⟩ := Option.map_eq_some_iff.mp read
    exact count found
  case h_10 => cases read
  all_goals
    cases read
    trivial

theorem two_pow_pred_le (most : bits ≤ 256) : (2 : Int) ^ (bits - 1) ≤ 2 ^ 255 := by
  have exponent : bits - 1 ≤ 255 := by omega
  exact_mod_cast Nat.pow_le_pow_right (show 0 < 2 by decide) exponent

theorem encodeStatic_uint_eq_ok_iff (held : Held arg) (most : bits ≤ 256) :
    encodeStatic (.uint bits) arg = .ok w ↔ Integer arg w.toNat ∧ w.toNat < 2 ^ bits := by
  have room : (2 : Nat) ^ bits ≤ 2 ^ 256 := Nat.pow_le_pow_right (by decide) most
  constructor
  · intro ok
    rw [encodeStatic] at ok
    split at ok
    case h_1 => cases ok
    case h_2 negative word read =>
      split at ok
      case isTrue => cases ok
      case isFalse positive =>
        split at ok
        case isTrue => cases ok
        case isFalse short =>
          cases ok
          have integer := integer_of_readInteger held read
          -- A sign passes only before zero.
          have worth : signed negative w.toNat = w.toNat := by
            cases negative with
            | false => rfl
            | true =>
                have zero : w.toNat = 0 := Word.isZero_iff.mp (by simpa using positive)
                rw [zero]
                rfl
          rw [worth] at integer
          exact ⟨integer, Word.bitLength_le_iff.mp (Nat.le_of_not_lt short)⟩
  · rintro ⟨integer, fits⟩
    obtain ⟨negative, word, read, worth, sign⟩ :=
      readInteger_of_integer integer (Nat.lt_of_lt_of_le fits room)
    have same : word = w := Word.toNat_injective worth
    have positive : (negative && !word.isZero) = false := by
      cases negative with
      | false => rfl
      | true =>
          have zero : w.toNat = 0 := by
            change -((w.toNat : Int).natAbs : Int) = w.toNat at sign
            omega
          rw [same, Word.isZero_iff.mpr zero]
          rfl
    have short : ¬bits < word.bitLength := by
      rw [same]
      exact Nat.not_lt.mpr (Word.bitLength_le_iff.mpr fits)
    rw [encodeStatic, read]
    dsimp only
    rw [positive, if_neg Bool.false_ne_true, if_neg short, same]

theorem encodeStatic_int_eq_ok_iff (held : Held arg) (least : 0 < bits) (most : bits ≤ 256) :
    encodeStatic (.int bits) arg = .ok w ↔
      Integer arg w.toInt ∧ -2 ^ (bits - 1) ≤ w.toInt ∧ w.toInt < 2 ^ (bits - 1) := by
  have room := two_pow_pred_le most
  have made {negative : Bool} {word : Word}
      (fits : -2 ^ (bits - 1) ≤ signed negative word.toNat ∧
        signed negative word.toNat < 2 ^ (bits - 1)) :
      (if negative then word.negate else word).toInt = signed negative word.toNat := by
    apply Word.toInt_of_signed
    · rw [signed] at fits
      split at fits <;> omega
    · rintro rfl
      have below : (word.toNat : Int) < 2 ^ (bits - 1) := fits.2
      omega
  constructor
  · intro ok
    rw [encodeStatic] at ok
    split at ok
    case h_1 => cases ok
    case h_2 negative word read =>
      dsimp only at ok
      split at ok
      case isTrue => cases ok
      case isFalse fits =>
        rw [Bool.not_eq_true', Bool.not_eq_false, Word.fits_iff least] at fits
        have integer := integer_of_readInteger held read
        rw [← Except.ok.inj ok, made fits]
        exact ⟨integer, fits⟩
  · rintro ⟨integer, fits⟩
    obtain ⟨negative, word, read, worth, sign⟩ := readInteger_of_integer integer (by omega)
    rw [← worth] at sign
    rw [← sign] at fits
    have same : (if negative then word.negate else word) = w := by
      apply Word.toInt_injective
      rw [made fits, sign]
    rw [encodeStatic, read]
    dsimp only
    rw [(Word.fits_iff least).mpr fits, same]
    rfl

theorem rightAligned_eq_ok_iff (room : size ≤ 32) :
    rightAligned size bytes = .ok w ↔
      bytes.length = size ∧ w.bytes = List.replicate (32 - size) 0 ++ bytes := by
  rw [rightAligned]
  split
  case isTrue fits =>
    cases w
    simp [fits.1, eq_comm]
  case isFalse misfit =>
    refine iff_of_false (fun ok => by cases ok) ?_
    exact fun fits => misfit ⟨fits.1, room⟩

theorem leftAligned_eq_ok_iff (room : size ≤ 32) :
    leftAligned size bytes = .ok w ↔
      bytes.length = size ∧ w.bytes = bytes ++ List.replicate (32 - size) 0 := by
  rw [leftAligned]
  split
  case isTrue fits =>
    cases w
    simp [fits.1, eq_comm]
  case isFalse misfit =>
    refine iff_of_false (fun ok => by cases ok) ?_
    exact fun fits => misfit ⟨fits.1, room⟩

theorem decodeWord?_rightAligned (ok : rightAligned 20 bytes = .ok w) :
    decodeWord? .address w = some (.bytes bytes) := by
  obtain ⟨-, aligned⟩ := (rightAligned_eq_ok_iff (by decide)).mp ok
  simp [decodeWord?, aligned]

theorem decodeWord?_leftAligned (room : size ≤ 32) (ok : leftAligned size bytes = .ok w) :
    decodeWord? (.fixedBytes size) w = some (.bytes bytes) := by
  obtain ⟨length, aligned⟩ := (leftAligned_eq_ok_iff room).mp ok
  simp [decodeWord?, aligned, ← length]

theorem decodeWord?_boolWord (b : Bool) : decodeWord? .bool (boolWord b) = some (.flag b) := by
  cases b <;> decide

theorem denotes_of_encodeStatic (supported : type.Supported) (held : Held arg)
    (ok : encodeStatic type arg = .ok w) : ∃ d, Denotes type arg d := by
  cases type with
  | address =>
      obtain ⟨bytes, read, aligned⟩ := bind_eq_ok_iff.mp ok
      obtain ⟨length, -⟩ := (rightAligned_eq_ok_iff (by decide)).mp aligned
      exact ⟨_, .address (hexBytes_eq_ok_iff.mp read) length⟩
  | bool =>
      unfold encodeStatic at ok
      dsimp only at ok
      split at ok
      · exact ⟨_, .flag⟩
      · split at ok
        case isTrue yes =>
          subst yes
          exact ⟨_, .yes⟩
        case isFalse =>
          split at ok
          case isTrue no =>
            subst no
            exact ⟨_, .no⟩
          case isFalse => cases ok
      · cases ok
  | uint bits =>
      obtain ⟨-, most⟩ := supported.bounds
      obtain ⟨integer, fits⟩ := (encodeStatic_uint_eq_ok_iff held most).mp ok
      exact ⟨_, .uint integer (Int.natCast_nonneg _) (by exact_mod_cast fits)⟩
  | int bits =>
      obtain ⟨least, most⟩ := supported.bounds
      obtain ⟨integer, fits⟩ := (encodeStatic_int_eq_ok_iff held (by omega) most).mp ok
      exact ⟨_, .int integer fits.1 fits.2⟩
  | fixedBytes size =>
      obtain ⟨bytes, read, aligned⟩ := bind_eq_ok_iff.mp ok
      obtain ⟨length, -⟩ := (leftAligned_eq_ok_iff supported.bounds).mp aligned
      exact ⟨_, .fixedBytes (hexBytes_eq_ok_iff.mp read) length⟩
  | bytes => cases ok
  | string => cases ok

theorem encodeStatic_of_denotes (supported : type.Supported) (held : Held arg)
    (fixed : type.isDynamic = false) (denotes : Denotes type arg d) :
    ∃ w, encodeStatic type arg = .ok w ∧ decodeWord? type w = some d := by
  cases denotes with
  | @address arg bytes hex length =>
      have aligned : rightAligned 20 bytes = .ok _ := dif_pos ⟨length, by decide⟩
      exact ⟨_, bind_eq_ok_iff.mpr ⟨bytes, hexBytes_eq_ok_iff.mpr hex, aligned⟩,
        decodeWord?_rightAligned aligned⟩
  | flag => exact ⟨_, rfl, decodeWord?_boolWord _⟩
  | yes => exact ⟨_, rfl, decodeWord?_boolWord true⟩
  | no => exact ⟨_, rfl, decodeWord?_boolWord false⟩
  | @uint bits arg n integer least most =>
      obtain ⟨-, widest⟩ := supported.bounds
      have room : (2 : Nat) ^ bits ≤ 2 ^ 256 := Nat.pow_le_pow_right (by decide) widest
      obtain ⟨m, rfl⟩ := Int.eq_ofNat_of_zero_le least
      have fits : m < 2 ^ bits := by exact_mod_cast most
      have worth : (Word.ofNat m).toNat = m := Word.toNat_ofNat (by omega)
      refine ⟨Word.ofNat m, (encodeStatic_uint_eq_ok_iff held widest).mpr ?_, ?_⟩
      · rw [worth]
        exact ⟨integer, fits⟩
      · rw [decodeWord?, worth, if_pos fits]
  | @int bits arg n integer least most =>
      obtain ⟨narrowest, widest⟩ := supported.bounds
      have room := two_pow_pred_le widest
      have worth : (Word.ofNat (n % 2 ^ 256).toNat).toInt = n :=
        Word.toInt_ofNat_emod (by omega) (by omega)
      refine ⟨Word.ofNat (n % 2 ^ 256).toNat,
        (encodeStatic_int_eq_ok_iff held (by omega) widest).mpr ?_, ?_⟩
      · rw [worth]
        exact ⟨integer, least, most⟩
      · rw [decodeWord?, worth, if_pos ⟨least, most⟩]
  | @fixedBytes size arg bytes hex length =>
      have room := supported.bounds
      have aligned : leftAligned size bytes = .ok _ := dif_pos ⟨length, room⟩
      exact ⟨_, bind_eq_ok_iff.mpr ⟨bytes, hexBytes_eq_ok_iff.mpr hex, aligned⟩,
        decodeWord?_leftAligned room aligned⟩
  | bytes => cases fixed
  | string => cases fixed

def Datum.content : Datum → List UInt8
  | .bytes content => content
  | .text s => Bytes.ofText s
  | _ => []

def decodeContent? (type : ParamType) (content : List UInt8) : Option Datum :=
  match type with
  | .string => (String.fromUTF8? content.toByteArray).map .text
  | .bytes => some (.bytes content)
  | _ => none

theorem dynamicBytes_eq_ok_iff (dynamic : type.isDynamic = true) :
    dynamicBytes type arg = .ok bytes ↔ ∃ d, Denotes type arg d ∧ d.content = bytes := by
  cases type with
  | string =>
      constructor
      · intro ok
        cases arg with
        | str s => exact ⟨_, .string, Except.ok.inj ok⟩
        | _ => cases ok
      · rintro ⟨_, denotes, rfl⟩
        cases denotes
        rfl
  | bytes =>
      change hexBytes arg = .ok bytes ↔ _
      rw [hexBytes_eq_ok_iff]
      constructor
      · intro hex
        exact ⟨_, .bytes hex, rfl⟩
      · rintro ⟨_, denotes, rfl⟩
        cases denotes with
        | bytes hex => exact hex
  | _ => cases dynamic

theorem decodeContent?_content (dynamic : type.isDynamic = true) (denotes : Denotes type arg d) :
    decodeContent? type d.content = some d := by
  cases denotes with
  | bytes => rfl
  | string => rw [Datum.content, decodeContent?, Bytes.fromUTF8?_ofText, Option.map_some]
  | _ => cases dynamic

end Tripwire.Contract
