import Tripwire.Proofs.Text.Hex
import Tripwire.Script.Render
import Tripwire.Signer.Identity

/-!
# Keys

A public key is `0x04` and 128 hexadecimal digits, of whatever characters and bytes a text is made. The local
issuer keeps to this form, since a digest has 32 bytes, and so it has an identity for each script.
-/
namespace Tripwire

namespace Text.Hex

variable {c : Char} {cs : List Char}

theorem isDigit_of_ascii : ∀ code : Fin 128,
    isDigit (Char.ofNat code) = decide (Char.ofNat code ∈ "0123456789abcdefABCDEF".toList) ∧
      isDigit (Char.ofNat code) = (nibble? (UInt8.ofNat code)).isSome := by
  decide +kernel

theorem ascii_of_isDigit (digit : isDigit c = true) : c.toNat < 128 := by
  have bounded {last : Char} (before : c ≤ last) (ascii : last.toNat < 128) : c.toNat < 128 :=
    Nat.lt_of_le_of_lt (UInt32.le_iff_toNat_le.mp before) ascii
  simp only [isDigit, Bool.or_eq_true, Bool.and_eq_true, decide_eq_true_eq] at digit
  rcases digit with (range | range) | range
  · exact bounded range.2 (by decide)
  · exact bounded range.2 (by decide)
  · exact bounded range.2 (by decide)

theorem isDigit_iff : isDigit c = true ↔ c ∈ "0123456789abcdefABCDEF".toList := by
  have decided (ascii : c.toNat < 128) :
      isDigit c = decide (c ∈ "0123456789abcdefABCDEF".toList) := by
    have same := (isDigit_of_ascii ⟨c.toNat, ascii⟩).1
    rwa [Char.ofNat_toNat] at same
  constructor
  · intro digit
    rw [decided (ascii_of_isDigit digit)] at digit
    exact of_decide_eq_true digit
  · intro among
    have ascii : "0123456789abcdefABCDEF".toList.all (·.toNat < 128) = true := by decide
    rw [decided (of_decide_eq_true (List.all_eq_true.mp ascii c among))]
    exact decide_eq_true among

theorem isDigit_eq_isSome_nibble? (ascii : c.toNat < 128) :
    isDigit c = (nibble? (UInt8.ofNat c.toNat)).isSome := by
  have same := (isDigit_of_ascii ⟨c.toNat, ascii⟩).2
  rwa [Char.ofNat_toNat] at same

theorem isDigit_digit : ∀ n : Fin 16, isDigit (digit n) = true := by
  decide

theorem isDigit_of_mem_write {bytes : List UInt8} (mem : c ∈ write bytes) : isDigit c = true := by
  obtain ⟨b, -, place⟩ := List.mem_flatMap.mp mem
  have byte := b.toNat_lt
  simp only [List.mem_cons, List.not_mem_nil, or_false] at place
  rcases place with rfl | rfl
  · exact isDigit_digit ⟨b.toNat / 16, by omega⟩
  · exact isDigit_digit ⟨b.toNat % 16, by omega⟩

theorem all_nibble?_iff : (∀ b ∈ Bytes.ofText (String.ofList cs), (nibble? b).isSome) ↔
    (∀ c ∈ cs, isDigit c = true) := by
  constructor
  · intro digits
    have low : ∀ code ∈ Bytes.ofText (String.ofList cs), code.toNat < 128 := by
      intro code among
      obtain ⟨n, found⟩ := Option.isSome_iff_exists.mp (digits code among)
      exact (nibble?_eq_some_iff.mp found).2.1
    have ascii := Bytes.ascii_of_ofText low
    intro c among
    rw [isDigit_eq_isSome_nibble? (ascii c among)]
    apply digits
    rw [Bytes.ofText_of_ascii ascii]
    exact List.mem_map_of_mem among
  · intro digits code among
    have ascii : ∀ c ∈ cs, c.toNat < 128 := fun c mem => ascii_of_isDigit (digits c mem)
    rw [Bytes.ofText_of_ascii ascii] at among
    obtain ⟨c, mem, rfl⟩ := List.mem_map.mp among
    rw [← isDigit_eq_isSome_nibble? (ascii c mem)]
    exact digits c mem

theorem length_ofText (digits : ∀ c ∈ cs, isDigit c = true) :
    (Bytes.ofText (String.ofList cs)).length = cs.length := by
  rw [Bytes.ofText_of_ascii fun c mem => ascii_of_isDigit (digits c mem), List.length_map]

end Text.Hex

namespace Signer

variable {key contentHash : String} {identity : Identity}

def Marked (mark : String) (count : Nat) (text : String) : Prop :=
  ∃ digits : List Char, text = mark ++ String.ofList digits ∧ digits.length = count ∧
    ∀ c ∈ digits, c ∈ "0123456789abcdefABCDEF".toList

/-- The form of keys as a check of bytes: behind `0x` stand 130 of them, all digits, the first two `04`. -/
def MarkedBytes (key : String) : Prop :=
  ∃ rest : List Char, key = "0x" ++ String.ofList rest ∧ "04".toList <+: rest ∧
    (Bytes.ofText (String.ofList rest)).length = 130 ∧
    ∀ b ∈ Bytes.ofText (String.ofList rest), (Text.Hex.nibble? b).isSome

theorem marked_write (mark : String) (bytes : List UInt8) :
    Marked mark (2 * bytes.length) (mark ++ String.ofList (Text.Hex.write bytes)) :=
  ⟨_, rfl, Text.Hex.length_write bytes, fun _ mem =>
    Text.Hex.isDigit_iff.mp (Text.Hex.isDigit_of_mem_write mem)⟩

theorem isPublicKey_eq_true_iff : isPublicKey key = true ↔ Marked "0x04" 128 key := by
  have same (digits : List Char) :
      key = "0x04" ++ String.ofList digits ↔ key.toList = '0' :: 'x' :: '0' :: '4' :: digits := by
    rw [← String.toList_inj]
    simp
  simp only [Marked, same, ← Text.Hex.isDigit_iff, isPublicKey]
  constructor
  · intro passes
    split at passes
    · rename_i digits shape
      rw [Bool.and_eq_true, decide_eq_true_eq, List.all_eq_true] at passes
      exact ⟨digits, shape, passes⟩
    · cases passes
  · rintro ⟨digits, shape, length, all⟩
    simpa [shape, length] using all

theorem markedBytes_iff : MarkedBytes key ↔ Marked "0x04" 128 key := by
  constructor
  · rintro ⟨rest, same, ⟨digits, rfl⟩, length, hex⟩
    have all := Text.Hex.all_nibble?_iff.mp hex
    rw [Text.Hex.length_ofText all] at length
    refine ⟨digits, ?_, by simpa using length, fun c mem => ?_⟩
    · rw [same, String.ofList_append, ← String.append_assoc]
      rfl
    · exact Text.Hex.isDigit_iff.mp (all c (List.mem_append_right _ mem))
  · rintro ⟨digits, same, length, hex⟩
    have all : ∀ c ∈ "04".toList ++ digits, Text.Hex.isDigit c = true := by
      rw [List.forall_mem_append]
      exact ⟨List.all_eq_true.mp rfl, fun c mem => Text.Hex.isDigit_iff.mpr (hex c mem)⟩
    refine ⟨_, ?_, List.prefix_append _ digits, ?_, Text.Hex.all_nibble?_iff.mpr all⟩
    · rw [same, String.ofList_append, ← String.append_assoc]
      rfl
    · rw [Text.Hex.length_ofText all, List.length_append, length]
      rfl

theorem checkPublicKey_eq_ok_iff : checkPublicKey key = .ok () ↔ Marked "0x04" 128 key := by
  rw [← isPublicKey_eq_true_iff, checkPublicKey]
  cases isPublicKey key <;> simp

theorem length_localKey (contentHash : String) : (localKey contentHash).length = 64 := by
  simp [localKey, Digest.Sha256.length_hash]

theorem exists_issueLocal (some : contentHash ≠ "") :
    ∃ identity, issueLocal contentHash = .ok identity ∧ Marked "0x04" 128 identity.publicKey ∧
      Marked "0x" 40 identity.address := by
  have filled : contentHash.isEmpty = false := by
    rw [Bool.eq_false_iff]
    exact fun empty => some (String.isEmpty_iff.mp empty)
  rw [issueLocal, filled]
  refine ⟨_, rfl, ?_, ?_⟩
  · have key := marked_write "0x04" (localKey contentHash)
    rwa [length_localKey] at key
  · have address := marked_write "0x" ((Digest.Keccak.hash (localKey contentHash)).drop 12)
    rwa [List.length_drop, Digest.Keccak.length_hash] at address

theorem contentHash_ne_empty (s : Script) : s.contentHash ≠ "" := by
  intro empty
  have length := congrArg (·.toList.length) empty
  simp [Script.contentHash, Script.hashOf, Text.Hex.length_write, Digest.Sha256.length_hash] at length

end Signer
end Tripwire
