import Mathlib.Tactic.Ring
import Tripwire.Contract.Word

namespace Tripwire

namespace Bytes

theorem toNat_append (high low : List UInt8) :
    toNat (high ++ low) = toNat high * 256 ^ low.length + toNat low := by
  have shifted (n : Nat) : low.foldl (fun n b => 256 * n + b.toNat) n =
      n * 256 ^ low.length + low.foldl (fun n b => 256 * n + b.toNat) 0 := by
    induction low generalizing n with
    | nil => simp
    | cons b low ih =>
        rw [List.foldl_cons, ih, List.foldl_cons, ih (256 * 0 + b.toNat), List.length_cons]
        ring
  rw [toNat, List.foldl_append, shifted]
  rfl

theorem toNat_cons (b : UInt8) (low : List UInt8) :
    toNat (b :: low) = b.toNat * 256 ^ low.length + toNat low := by
  have one : toNat [b] = b.toNat := by simp [toNat]
  rw [← List.singleton_append, toNat_append, one]

theorem toNat_lt (bytes : List UInt8) : toNat bytes < 256 ^ bytes.length := by
  induction bytes with
  | nil => simp [toNat]
  | cons b low ih =>
      have small := b.toNat_lt
      calc toNat (b :: low) = b.toNat * 256 ^ low.length + toNat low := toNat_cons b low
        _ < b.toNat * 256 ^ low.length + 256 ^ low.length := Nat.add_lt_add_left ih _
        _ = (b.toNat + 1) * 256 ^ low.length := (Nat.succ_mul _ _).symm
        _ ≤ 256 * 256 ^ low.length := Nat.mul_le_mul_right _ small
        _ = 256 ^ (b :: low).length := by rw [List.length_cons, pow_succ, Nat.mul_comm]

theorem toNat_replicate_zero (count : Nat) : toNat (List.replicate count 0) = 0 := by
  induction count with
  | zero => rfl
  | succ count ih => simp [List.replicate_succ, toNat_cons, ih]

theorem toNat_injective {a b : List UInt8} (length : a.length = b.length)
    (same : toNat a = toNat b) : a = b := by
  induction a generalizing b with
  | nil => exact (List.length_eq_zero_iff.mp length.symm).symm
  | cons x low ih =>
      cases b with
      | nil => cases length
      | cons y other =>
          have lengths : low.length = other.length := Nat.succ.inj length
          have below := toNat_lt low
          have under := toNat_lt other
          rw [toNat_cons, toNat_cons, Nat.add_comm, Nat.add_comm (_ * _)] at same
          rw [← lengths] at same under
          have high : x.toNat = y.toNat := by
            have divided := congrArg (· / 256 ^ low.length) same
            simpa [Nat.add_mul_div_right, Nat.div_eq_of_lt, below, under] using divided
          rw [high] at same
          rw [UInt8.toNat_inj.mp high, ih lengths (Nat.add_right_cancel same)]

theorem bigEndian_succ (count n : Nat) :
    bigEndian (count + 1) n = (n / 256 ^ count).toUInt8 :: bigEndian count n := by
  simp [bigEndian, List.range_succ]

theorem toNat_bigEndian (count n : Nat) : toNat (bigEndian count n) = n % 256 ^ count := by
  induction count with
  | zero => simp [bigEndian, toNat, Nat.mod_one]
  | succ count ih =>
      rw [bigEndian_succ, toNat_cons, ih, length_bigEndian]
      have low : (n / 256 ^ count).toUInt8.toNat = n / 256 ^ count % 256 := by simp
      rw [low, pow_succ, Nat.mod_mul]
      ring

theorem toNat_complement (bytes : List UInt8) :
    toNat (bytes.map (~~~·)) + toNat bytes + 1 = 256 ^ bytes.length := by
  induction bytes with
  | nil => rfl
  | cons b low ih =>
      have whole : (~~~b).toNat + b.toNat = 255 := by
        have small : b.toNat < UInt8.size := b.toNat_lt
        have size : UInt8.size = 256 := rfl
        rw [UInt8.toNat_not]
        omega
      rw [List.map_cons, toNat_cons, toNat_cons, List.length_map, List.length_cons, pow_succ]
      calc (~~~b).toNat * 256 ^ low.length + toNat (low.map (~~~·)) +
            (b.toNat * 256 ^ low.length + toNat low) + 1
          = ((~~~b).toNat + b.toNat) * 256 ^ low.length +
              (toNat (low.map (~~~·)) + toNat low + 1) := by ring
        _ = 256 ^ low.length * 256 := by rw [whole, ih]; ring

end Bytes

namespace Contract.Word

variable {w : Word} {n bits : Nat}

theorem toNat_lt (w : Word) : w.toNat < 2 ^ 256 := by
  have below := Bytes.toNat_lt w.bytes
  rw [w.length_bytes] at below
  exact Nat.lt_of_lt_of_eq below (by norm_num)

theorem toNat_injective {w' : Word} (same : w.toNat = w'.toNat) : w = w' := by
  have bytes := Bytes.toNat_injective (w.length_bytes.trans w'.length_bytes.symm) same
  cases w
  cases w'
  simpa using bytes

theorem toNat_ofNat (small : n < 2 ^ 256) : (ofNat n).toNat = n := by
  have small : n < 256 ^ 32 := Nat.lt_of_lt_of_eq small (by norm_num)
  rw [toNat, ofNat, Bytes.toNat_bigEndian, Nat.mod_eq_of_lt small]

theorem toNat_zero : zero.toNat = 0 := Bytes.toNat_replicate_zero 32

theorem toNat_mul_add {factor carry : UInt32} (small : factor.toNat ≤ 2 ^ 16)
    (bounded : carry.toNat ≤ 2 ^ 16) (b : UInt8) :
    b.toNat * factor.toNat ≤ 255 * 2 ^ 16 ∧
      (b.toUInt32 * factor + carry).toNat = b.toNat * factor.toNat + carry.toNat := by
  have byte := b.toNat_lt
  have product : b.toNat * factor.toNat ≤ 255 * 2 ^ 16 := Nat.mul_le_mul (by omega) small
  refine ⟨product, ?_⟩
  rw [UInt32.toNat_add, UInt32.toNat_mul, UInt8.toNat_toUInt32,
    Nat.mod_eq_of_lt (show b.toNat * factor.toNat < 2 ^ 32 by omega),
    Nat.mod_eq_of_lt (by omega)]

theorem mulAddBytes_eq {factor addend : UInt32} (small : factor.toNat ≤ 2 ^ 16)
    (start : addend.toNat ≤ 2 ^ 16) (bytes : List UInt8) :
    (mulAddBytes factor addend bytes).2.toNat ≤ 2 ^ 16 ∧
      Bytes.toNat (mulAddBytes factor addend bytes).1 +
          (mulAddBytes factor addend bytes).2.toNat * 256 ^ bytes.length =
        Bytes.toNat bytes * factor.toNat + addend.toNat := by
  -- The carry is what does not fit into the bytes. It stays small enough for the next product.
  induction bytes with
  | nil => simpa [mulAddBytes, Bytes.toNat] using start
  | cons b low ih =>
      obtain ⟨bounded, worth⟩ := ih
      simp only [mulAddBytes]
      generalize (mulAddBytes factor addend low).2 = carry at bounded worth ⊢
      have length := length_mulAddBytes factor addend low
      generalize (mulAddBytes factor addend low).1 = lows at worth length ⊢
      obtain ⟨product, sum⟩ := toNat_mul_add small bounded b
      have high : ((b.toUInt32 * factor + carry) >>> 8).toNat =
          (b.toNat * factor.toNat + carry.toNat) / 256 := by
        rw [UInt32.toNat_shiftRight, sum, Nat.shiftRight_eq_div_pow]
        rfl
      have digit : (b.toUInt32 * factor + carry).toUInt8.toNat =
          (b.toNat * factor.toNat + carry.toNat) % 256 := by
        rw [UInt32.toNat_toUInt8, sum]
      constructor
      · rw [high]
        omega
      · rw [Bytes.toNat_cons, Bytes.toNat_cons, high, digit, length, List.length_cons, pow_succ]
        have divided := Nat.mod_add_div (b.toNat * factor.toNat + carry.toNat) 256
        generalize (b.toNat * factor.toNat + carry.toNat) / 256 = quotient at divided ⊢
        generalize (b.toNat * factor.toNat + carry.toNat) % 256 = remainder at divided ⊢
        calc remainder * 256 ^ low.length + Bytes.toNat lows + quotient * (256 ^ low.length * 256)
            = (remainder + 256 * quotient) * 256 ^ low.length + Bytes.toNat lows := by ring
          _ = (b.toNat * factor.toNat + carry.toNat) * 256 ^ low.length + Bytes.toNat lows := by
              rw [divided]
          _ = b.toNat * factor.toNat * 256 ^ low.length +
                (Bytes.toNat lows + carry.toNat * 256 ^ low.length) := by ring
          _ = (b.toNat * 256 ^ low.length + Bytes.toNat low) * factor.toNat + addend.toNat := by
              rw [worth]
              ring

theorem mulAdd_eq {factor addend : UInt32} (small : factor.toNat ≤ 2 ^ 16)
    (start : addend.toNat ≤ 2 ^ 16) (w : Word) :
    (w.mulAdd factor addend).1.toNat = (w.toNat * factor.toNat + addend.toNat) % 2 ^ 256 ∧
      ((w.mulAdd factor addend).2 = true ↔ 2 ^ 256 ≤ w.toNat * factor.toNat + addend.toNat) := by
  obtain ⟨-, worth⟩ := mulAddBytes_eq small start w.bytes
  have below := toNat_lt (w.mulAdd factor addend).1
  have size : (256 : Nat) ^ w.bytes.length = 2 ^ 256 := by
    rw [w.length_bytes]
    norm_num
  have carried : (w.mulAdd factor addend).2 = true ↔
      (mulAddBytes factor addend w.bytes).2.toNat ≠ 0 := by
    simp [mulAdd, ← UInt32.toNat_inj]
  rw [size] at worth
  rw [carried]
  change (w.mulAdd factor addend).1.toNat + _ = w.toNat * _ + _ at worth
  generalize (mulAddBytes factor addend w.bytes).2.toNat = carry at worth ⊢
  rw [← worth]
  constructor
  · rw [Nat.add_mul_mod_self_right, Nat.mod_eq_of_lt below]
  · constructor
    · intro carries
      exact Nat.le_add_left_of_le (Nat.le_mul_of_pos_left _ (Nat.pos_of_ne_zero carries))
    · rintro beyond rfl
      omega

theorem toNat_negate (w : Word) : w.negate.toNat = (2 ^ 256 - w.toNat) % 2 ^ 256 := by
  have whole := Bytes.toNat_complement w.bytes
  rw [w.length_bytes, show (256 : Nat) ^ 32 = 2 ^ 256 by norm_num] at whole
  have flipped : (⟨w.bytes.map (~~~·), by simp [w.length_bytes]⟩ : Word).toNat * (1 : UInt32).toNat +
      (1 : UInt32).toNat = 2 ^ 256 - w.toNat := by
    change Bytes.toNat (w.bytes.map (~~~·)) * 1 + 1 = 2 ^ 256 - Bytes.toNat w.bytes
    omega
  rw [negate, (mulAdd_eq (by decide) (by decide) _).1, flipped]

theorem bitsOf_le_iff {bytes : List UInt8} : bitsOf bytes ≤ bits ↔ Bytes.toNat bytes < 2 ^ bits := by
  induction bytes with
  | nil => simp [bitsOf, Bytes.toNat]
  | cons b low ih =>
      rw [bitsOf, Bytes.toNat_cons]
      by_cases zero : b = 0
      · simpa [zero] using ih
      · have positive : b.toNat ≠ 0 := fun none => zero (UInt8.toNat_inj.mp none)
        have least := Nat.log2_self_le positive
        have most := Nat.lt_log2_self (n := b.toNat)
        have below := Bytes.toNat_lt low
        have width : (256 : Nat) ^ low.length = 2 ^ (8 * low.length) := by
          rw [pow_mul]
          norm_num
        rw [if_neg zero, byteBits, if_neg zero]
        rw [width] at below ⊢
        constructor
        · intro enough
          calc b.toNat * 2 ^ (8 * low.length) + Bytes.toNat low
              < (b.toNat + 1) * 2 ^ (8 * low.length) := by
                rw [Nat.succ_mul b.toNat]
                exact Nat.add_lt_add_left below _
            _ ≤ 2 ^ (b.toNat.log2 + 1) * 2 ^ (8 * low.length) := Nat.mul_le_mul_right _ most
            _ = 2 ^ (b.toNat.log2 + 1 + 8 * low.length) := (pow_add ..).symm
            _ ≤ 2 ^ bits := Nat.pow_le_pow_right (by decide) enough
        · intro fits
          by_contra short
          have beyond : 2 ^ bits ≤ b.toNat * 2 ^ (8 * low.length) := by
            calc 2 ^ bits ≤ 2 ^ (b.toNat.log2 + 8 * low.length) :=
                  Nat.pow_le_pow_right (by decide) (by omega)
              _ = 2 ^ b.toNat.log2 * 2 ^ (8 * low.length) := pow_add ..
              _ ≤ b.toNat * 2 ^ (8 * low.length) := Nat.mul_le_mul_right _ least
          omega

theorem bitLength_le_iff : w.bitLength ≤ bits ↔ w.toNat < 2 ^ bits := bitsOf_le_iff

theorem isZero_iff : w.isZero = true ↔ w.toNat = 0 := by
  have all (bytes : List UInt8) : bytes.all (· == 0) = true ↔ Bytes.toNat bytes = 0 := by
    induction bytes with
    | nil => simp [Bytes.toNat]
    | cons b low ih => simp [Bytes.toNat_cons, ih, ← UInt8.toNat_inj]
  exact all w.bytes

theorem onesOf_append {high low more : Nat} (small : low < 2 ^ bits) :
    onesOf (high * 2 ^ bits + low) (bits + more) = onesOf low bits + onesOf high more := by
  induction bits generalizing low with
  | zero =>
      have none : low = 0 := by omega
      simp [none, onesOf]
  | succ bits ih =>
      have parity : (high * 2 ^ (bits + 1) + low) % 2 = low % 2 := by
        rw [pow_succ, ← Nat.mul_assoc]
        omega
      have half : (high * 2 ^ (bits + 1) + low) / 2 = high * 2 ^ bits + low / 2 := by
        rw [pow_succ, ← Nat.mul_assoc]
        omega
      rw [Nat.add_right_comm, onesOf, parity, half, ih (by omega), onesOf, Nat.add_assoc]

theorem onesOf_eq_zero_iff (small : n < 2 ^ bits) : onesOf n bits = 0 ↔ n = 0 := by
  induction bits generalizing n with
  | zero => simpa [onesOf] using small
  | succ bits ih =>
      have halved := ih (n := n / 2) (by omega)
      rw [onesOf]
      omega

theorem onesOf_eq_one_iff (small : n < 2 ^ bits) : onesOf n bits = 1 ↔ ∃ i, n = 2 ^ i := by
  induction bits generalizing n with
  | zero =>
      have none : n = 0 := by simpa using small
      refine iff_of_false Nat.zero_ne_one ?_
      rintro ⟨i, power⟩
      have positive := Nat.two_pow_pos i
      omega
  | succ bits ih =>
      have halved := ih (n := n / 2) (by omega)
      have rest : onesOf (n / 2) bits = 0 ↔ n / 2 = 0 := onesOf_eq_zero_iff (by omega)
      rw [onesOf]
      rcases Nat.mod_two_eq_zero_or_one n with even | odd
      · rw [even, Nat.zero_add, halved]
        constructor
        · rintro ⟨i, half⟩
          exact ⟨i + 1, by rw [pow_succ]; omega⟩
        · rintro ⟨i, rfl⟩
          cases i with
          | zero => cases even
          | succ i => exact ⟨i, by rw [pow_succ]; omega⟩
      · rw [odd]
        constructor
        · intro one
          exact ⟨0, by rw [pow_zero]; omega⟩
        · rintro ⟨i, rfl⟩
          cases i with
          | zero => omega
          | succ i =>
              rw [pow_succ] at odd
              omega

theorem foldl_onesOf (bytes : List UInt8) (start : Nat) :
    bytes.foldl (fun ones b => ones + onesOf b.toNat 8) start =
      start + onesOf (Bytes.toNat bytes) (8 * bytes.length) := by
  induction bytes generalizing start with
  | nil => rfl
  | cons b low ih =>
      have width : (256 : Nat) ^ low.length = 2 ^ (8 * low.length) := by
        rw [pow_mul]
        norm_num
      have below := Bytes.toNat_lt low
      rw [width] at below
      rw [List.foldl_cons, ih, Bytes.toNat_cons, width, List.length_cons, Nat.mul_succ,
        onesOf_append below]
      omega

theorem isPowerOfTwo_iff : w.isPowerOfTwo = true ↔ ∃ i, w.toNat = 2 ^ i := by
  have below := toNat_lt w
  rw [isPowerOfTwo, foldl_onesOf, w.length_bytes, Nat.zero_add, decide_eq_true_iff]
  exact onesOf_eq_one_iff below

theorem bitLength_eq_and_isPowerOfTwo_iff (positive : 0 < bits) :
    w.bitLength = bits ∧ w.isPowerOfTwo = true ↔ w.toNat = 2 ^ (bits - 1) := by
  have within : w.bitLength ≤ bits ↔ w.toNat < 2 ^ bits := bitLength_le_iff
  have short : w.bitLength ≤ bits - 1 ↔ w.toNat < 2 ^ (bits - 1) := bitLength_le_iff
  rw [isPowerOfTwo_iff]
  constructor
  · rintro ⟨length, i, power⟩
    rw [power] at within short ⊢
    have upper := within.mp (Nat.le_of_eq length)
    have lower : ¬2 ^ i < 2 ^ (bits - 1) := fun less => by
      have least := short.mpr less
      omega
    have most := (Nat.pow_lt_pow_iff_right (by decide)).mp upper
    have least : ¬i < bits - 1 := fun less =>
      lower ((Nat.pow_lt_pow_iff_right (by decide)).mpr less)
    rw [show i = bits - 1 by omega]
  · intro power
    have upper := within.mpr (by
      rw [power]
      exact Nat.pow_lt_pow_right (by decide) (by omega))
    have lower : ¬w.bitLength ≤ bits - 1 := fun least => by
      have less := short.mp least
      omega
    exact ⟨by omega, bits - 1, power⟩

def toInt (w : Word) : Int := if w.toNat < 2 ^ 255 then w.toNat else w.toNat - 2 ^ 256

theorem toInt_injective {w' : Word} (same : w.toInt = w'.toInt) : w = w' := by
  apply toNat_injective
  have below := toNat_lt w
  have under := toNat_lt w'
  rw [toInt, toInt] at same
  split at same <;> split at same <;> omega

theorem toInt_ofNat_emod {n : Int} (least : -2 ^ 255 ≤ n) (most : n < 2 ^ 255) :
    (ofNat (n % 2 ^ 256).toNat).toInt = n := by
  rw [toInt, toNat_ofNat (by omega)]
  split <;> omega

end Contract.Word
end Tripwire
