import Tripwire.Proofs.Contract.Argument

/-!
# Which integers are encoded

An argument denotes one integer at most, and that is encoded exactly if it lies in the range of the type.
The word is then worth the integer modulo `2 ^ 256`, and nothing is lost on the way to it: no product, sum
or count that has to fit into 32 bits exceeds them.
-/
namespace Tripwire.Contract

variable {base n n' : Nat} {text : List Char} {arg : Value} {v v' : Int} {w : Word} {bits : Nat}

theorem hexDigit_inj : ∀ d e : Fin 16, Text.Hex.digit d = Text.Hex.digit e → d = e := by
  decide

theorem digits_eq {digits digits' : List Nat} (below : ∀ d ∈ digits, d < 16)
    (below' : ∀ d ∈ digits', d < 16)
    (same : digits.map Text.Hex.digit = digits'.map Text.Hex.digit) : digits = digits' := by
  induction digits generalizing digits' with
  | nil => exact (List.map_eq_nil_iff.mp same.symm).symm
  | cons d digits ih =>
      cases digits' with
      | nil => cases same
      | cons d' digits' =>
          obtain ⟨first, rest⟩ := List.cons.inj same
          obtain ⟨small, below⟩ := List.forall_mem_cons.mp below
          obtain ⟨small', below'⟩ := List.forall_mem_cons.mp below'
          have equal := hexDigit_inj ⟨d, small⟩ ⟨d', small'⟩ first
          rw [Fin.mk.inj equal, ih below below' rest]

theorem Numeral.unique (small : base ≤ 16) (spells : Numeral base text n)
    (spells' : Numeral base text n') : n = n' := by
  obtain ⟨digits, below, letters, rfl⟩ := spells
  obtain ⟨digits', below', letters', rfl⟩ := spells'
  have among : ∀ d ∈ digits, d < 16 := fun d member => Nat.lt_of_lt_of_le (below d member) small
  have among' : ∀ d ∈ digits', d < 16 := fun d member => Nat.lt_of_lt_of_le (below' d member) small
  rw [digits_eq among among' (letters.symm.trans letters')]

theorem Magnitude.unique (magnitude : Magnitude text n) (magnitude' : Magnitude text n') : n = n' := by
  cases magnitude with
  | decimal some spells =>
      cases magnitude' with
      | decimal some' spells' => exact spells.unique (by decide) spells'
      | hex => exact absurd spells not_decimal_of_marked
  | hex some spells =>
      cases magnitude' with
      | decimal some' spells' => exact absurd spells' not_decimal_of_marked
      | hex some' spells' => exact spells.unique (by decide) spells'

theorem Integer.unique (integer : Integer arg v) (integer' : Integer arg v') : v = v' := by
  cases integer with
  | number =>
      cases integer'
      rfl
  | text magnitude =>
      cases integer' with
      | text magnitude' => rw [magnitude.unique magnitude']
      | minus sign => exact absurd (sign ▸ magnitude) not_magnitude_of_minus
  | minus sign magnitude =>
      cases integer' with
      | text magnitude' => exact absurd (sign ▸ magnitude') not_magnitude_of_minus
      | minus sign' magnitude' =>
          obtain ⟨-, rfl⟩ := List.cons.inj (sign.symm.trans sign')
          rw [magnitude.unique magnitude']

theorem Word.toInt_emod (w : Word) : w.toInt % 2 ^ 256 = w.toNat := by
  have below := w.toNat_lt
  rw [Word.toInt]
  split <;> omega

theorem encodes_uint_iff (held : Held arg) (most : bits ≤ 256) :
    (∃ w, encodeStatic (.uint bits) arg = .ok w) ↔ ∃ v, Integer arg v ∧ 0 ≤ v ∧ v < 2 ^ bits := by
  have room : (2 : Nat) ^ bits ≤ 2 ^ 256 := Nat.pow_le_pow_right (by decide) most
  constructor
  · rintro ⟨w, ok⟩
    obtain ⟨integer, fits⟩ := (encodeStatic_uint_eq_ok_iff held most).mp ok
    exact ⟨w.toNat, integer, Int.natCast_nonneg _, by exact_mod_cast fits⟩
  · rintro ⟨v, integer, least, fits⟩
    obtain ⟨m, rfl⟩ := Int.eq_ofNat_of_zero_le least
    have fits : m < 2 ^ bits := by exact_mod_cast fits
    have worth : (Word.ofNat m).toNat = m := Word.toNat_ofNat (Nat.lt_of_lt_of_le fits room)
    refine ⟨Word.ofNat m, (encodeStatic_uint_eq_ok_iff held most).mpr ?_⟩
    rw [worth]
    exact ⟨integer, fits⟩

theorem encodes_int_iff (held : Held arg) (positive : 0 < bits) (most : bits ≤ 256) :
    (∃ w, encodeStatic (.int bits) arg = .ok w) ↔
      ∃ v, Integer arg v ∧ -2 ^ (bits - 1) ≤ v ∧ v < 2 ^ (bits - 1) := by
  have room := two_pow_pred_le most
  constructor
  · rintro ⟨w, ok⟩
    exact ⟨w.toInt, (encodeStatic_int_eq_ok_iff held positive most).mp ok⟩
  · rintro ⟨v, integer, least, fits⟩
    have worth : (Word.ofNat (v % 2 ^ 256).toNat).toInt = v :=
      Word.toInt_ofNat_emod (by omega) (by omega)
    refine ⟨Word.ofNat (v % 2 ^ 256).toNat,
      (encodeStatic_int_eq_ok_iff held positive most).mpr ?_⟩
    rw [worth]
    exact ⟨integer, least, fits⟩

theorem toNat_of_uint (held : Held arg) (most : bits ≤ 256) (integer : Integer arg v)
    (ok : encodeStatic (.uint bits) arg = .ok w) : (w.toNat : Int) = v % 2 ^ 256 := by
  obtain ⟨read, -⟩ := (encodeStatic_uint_eq_ok_iff held most).mp ok
  have below := w.toNat_lt
  rw [integer.unique read]
  omega

theorem toNat_of_int (held : Held arg) (positive : 0 < bits) (most : bits ≤ 256)
    (integer : Integer arg v) (ok : encodeStatic (.int bits) arg = .ok w) :
    (w.toNat : Int) = v % 2 ^ 256 := by
  obtain ⟨read, -⟩ := (encodeStatic_int_eq_ok_iff held positive most).mp ok
  rw [integer.unique read, Word.toInt_emod]

namespace Word

/-- Where a digit is appended to bytes, no product and no sum exceeds 32 bits, and a byte with the carry
behind it holds the sum in full. -/
def Lossless (factor addend : UInt32) : List UInt8 → Prop
  | [] => True
  | b :: low =>
      let carry := (mulAddBytes factor addend low).2
      let v := b.toUInt32 * factor + carry
      Lossless factor addend low ∧ b.toNat * factor.toNat + carry.toNat < 2 ^ 32 ∧
        v.toUInt8.toNat + 256 * (v >>> 8).toNat = b.toNat * factor.toNat + carry.toNat

theorem lossless {factor addend : UInt32} (small : factor.toNat ≤ 2 ^ 16)
    (start : addend.toNat ≤ 2 ^ 16) (bytes : List UInt8) : Lossless factor addend bytes := by
  induction bytes with
  | nil => trivial
  | cons b low ih =>
      obtain ⟨bounded, -⟩ := mulAddBytes_eq small start low
      rw [Lossless]
      generalize (mulAddBytes factor addend low).2 = carry at bounded ⊢
      obtain ⟨product, sum⟩ := toNat_mul_add small bounded b
      refine ⟨ih, by omega, ?_⟩
      rw [UInt32.toNat_toUInt8, UInt32.toNat_shiftRight, sum, Nat.shiftRight_eq_div_pow]
      exact Nat.mod_add_div _ 256

theorem lossless_digit {base d : UInt32} {c : Char} (known : base = 10 ∨ base = 16)
    (read : digit? base c = some d) (w : Word) : Lossless base d w.bytes := by
  have small : base ≤ 16 := by rcases known with rfl | rfl <;> decide
  have least : base.toNat ≤ 16 := UInt32.le_iff_toNat_le.mp small
  have less : d.toNat < base.toNat :=
    UInt32.lt_iff_toNat_lt.mp ((digit?_eq_some_iff small).mp read).1
  exact lossless (by omega) (by omega) w.bytes

theorem onesOf_le (n count : Nat) : onesOf n count ≤ count := by
  induction count generalizing n with
  | zero => exact Nat.le_refl 0
  | succ count ih =>
      have rest := ih (n / 2)
      rw [onesOf]
      omega

theorem ones_le (w : Word) (count : Nat) :
    (w.bytes.take count).foldl (fun ones b => ones + onesOf b.toNat 8) 0 ≤ 256 := by
  have length : (w.bytes.take count).length ≤ 32 := by
    rw [← w.length_bytes]
    exact List.length_take_le' ..
  have ones := onesOf_le (Bytes.toNat (w.bytes.take count)) (8 * (w.bytes.take count).length)
  rw [foldl_onesOf]
  omega

end Word

/-- An argument is encoded as an integer type exactly if it denotes an integer in the range of the type,
and the word is worth that integer modulo `2 ^ 256`. Whatever digits are appended to whatever word, and
whatever word is negated, its bytes and carries hold every sum in full, and the counts of its bits stay
within `256`. -/
theorem integers_encode_in_range (arg : Value) (bits : Nat) (held : Held arg) (positive : 0 < bits)
    (most : bits ≤ 256) :
    ((∃ w, encodeStatic (.uint bits) arg = .ok w) ↔ ∃ v, Integer arg v ∧ 0 ≤ v ∧ v < 2 ^ bits) ∧
    ((∃ w, encodeStatic (.int bits) arg = .ok w) ↔
      ∃ v, Integer arg v ∧ -2 ^ (bits - 1) ≤ v ∧ v < 2 ^ (bits - 1)) ∧
    (∀ type w v, type = .uint bits ∨ type = .int bits → encodeStatic type arg = .ok w →
      Integer arg v → (Bytes.toNat w.bytes : Int) = v % 2 ^ 256) ∧
    (∀ base c d, base = 10 ∨ base = 16 → Word.digit? base c = some d → ∀ w : Word,
      Word.Lossless base d w.bytes) ∧
    (∀ w : Word, Word.Lossless 1 1 (w.bytes.map (~~~·))) ∧
    (∀ w : Word, w.bitLength ≤ 256 ∧ ∀ count,
      (w.bytes.take count).foldl (fun ones b => ones + Word.onesOf b.toNat 8) 0 ≤ 256) := by
  refine ⟨encodes_uint_iff held most, encodes_int_iff held positive most, ?_, ?_, ?_, ?_⟩
  · rintro type w v (rfl | rfl) ok integer
    · exact toNat_of_uint held most integer ok
    · exact toNat_of_int held positive most integer ok
  · intro base c d known read w
    exact Word.lossless_digit known read w
  · intro w
    exact Word.lossless (by decide) (by decide) _
  · intro w
    exact ⟨Word.bitLength_le_iff.mpr w.toNat_lt, w.ones_le⟩

def sampleLeast : Value := .str "-0x80"

theorem sampleLeast_encodes :
    (∃ w, encodeStatic (.int 8) sampleLeast = .ok w ∧ (Bytes.toNat w.bytes : Int) = 2 ^ 256 - 128) ∧
      ¬(∃ w, encodeStatic (.uint 8) sampleLeast = .ok w) ∧
      ¬∃ w, encodeStatic (.int 8) (.str "0x80") = .ok w := by
  have spells : Numeral 16 ['8', '0'] 128 := ⟨[8, 0], by decide, by decide, rfl⟩
  have sign : "-0x80".toList = '-' :: '0' :: 'x' :: ['8', '0'] := by decide
  have mark : "0x80".toList = '0' :: 'x' :: ['8', '0'] := by decide
  have least : Integer sampleLeast (-128) := .minus sign (.hex (by decide) spells)
  have beyond : Integer (.str "0x80") 128 := .text (mark ▸ .hex (by decide) spells)
  obtain ⟨unsigned, signed, worth, -⟩ :=
    integers_encode_in_range sampleLeast 8 trivial (by decide) (by decide)
  obtain ⟨-, signed', -⟩ :=
    integers_encode_in_range (.str "0x80") 8 trivial (by decide) (by decide)
  refine ⟨?_, ?_, ?_⟩
  · obtain ⟨w, ok⟩ := signed.mpr ⟨-128, least, by decide, by decide⟩
    exact ⟨w, ok, worth _ w (-128) (.inr rfl) ok least⟩
  · intro ok
    obtain ⟨v, integer, nonnegative, -⟩ := unsigned.mp ok
    rw [integer.unique least] at nonnegative
    cases nonnegative
  · intro ok
    obtain ⟨v, integer, -, fits⟩ := signed'.mp ok
    rw [integer.unique beyond] at fits
    cases fits

end Tripwire.Contract
