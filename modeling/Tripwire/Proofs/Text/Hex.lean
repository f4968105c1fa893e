import Tripwire.Bytes
import Tripwire.Text.Hex

namespace Tripwire

namespace Bytes

theorem toList_loop (bytes : ByteArray) (i : Nat) (before : List UInt8) :
    ByteArray.toList.loop bytes i before = before.reverse ++ bytes.data.toList.drop i := by
  induction i, before using ByteArray.toList.loop.induct bytes with
  | case1 i before within ih =>
      have here : i < bytes.data.toList.length := within
      have found : bytes.get! i = bytes.data.toList[i] := by
        simp [ByteArray.get!, getElem!_pos bytes.data i within]
      rw [ByteArray.toList.loop, if_pos within, ih, List.reverse_cons, List.append_assoc,
        List.drop_eq_getElem_cons here, found]
      rfl
  | case2 i before past =>
      have none : bytes.data.toList.drop i = [] := List.drop_eq_nil_of_le (Nat.le_of_not_lt past)
      rw [ByteArray.toList.loop, if_neg past, none, List.append_nil]

theorem toByteArray_ofText (s : String) : (ofText s).toByteArray = s.toByteArray := by
  apply ByteArray.ext
  rw [List.data_toByteArray, ofText, String.toUTF8_eq_toByteArray, ByteArray.toList, toList_loop]
  rfl

theorem fromUTF8?_ofText (s : String) : String.fromUTF8? (ofText s).toByteArray = some s := by
  rw [toByteArray_ofText, String.fromUTF8?, dif_pos s.isValidUTF8]
  rfl

theorem ofText_ofList (cs : List Char) :
    ofText (String.ofList cs) = cs.flatMap String.utf8EncodeChar := by
  rw [ofText, String.toUTF8_eq_toByteArray, ByteArray.toList, toList_loop]
  change [] ++ cs.utf8Encode.data.toList = _
  simp [List.utf8Encode]

theorem utf8EncodeChar_of_ascii {c : Char} (ascii : c.toNat < 128) :
    String.utf8EncodeChar c = [UInt8.ofNat c.toNat] := by
  have within : c.val.toNat ≤ 127 := Nat.le_of_lt_succ ascii
  rw [String.utf8EncodeChar.eq_1, if_pos within]
  rfl

theorem head_utf8EncodeChar {c : Char} (foreign : 128 ≤ c.toNat) :
    ∃ code rest, String.utf8EncodeChar c = code :: rest ∧ 128 ≤ code.toNat := by
  have beyond : ¬c.val.toNat ≤ 127 := Nat.not_le.mpr foreign
  rw [String.utf8EncodeChar.eq_1, if_neg beyond]
  split
  · exact ⟨_, _, rfl, by simp; omega⟩
  · split
    · exact ⟨_, _, rfl, by simp; omega⟩
    · exact ⟨_, _, rfl, by simp; omega⟩

theorem ofText_of_ascii {cs : List Char} (ascii : ∀ c ∈ cs, c.toNat < 128) :
    ofText (String.ofList cs) = cs.map fun c => UInt8.ofNat c.toNat := by
  rw [ofText_ofList]
  induction cs with
  | nil => rfl
  | cons c cs ih =>
      rw [List.flatMap_cons, utf8EncodeChar_of_ascii (ascii c (by simp)),
        ih fun c among => ascii c (by simp [among])]
      rfl

theorem ascii_of_ofText {cs : List Char}
    (low : ∀ code ∈ ofText (String.ofList cs), code.toNat < 128) : ∀ c ∈ cs, c.toNat < 128 := by
  intro c among
  apply Nat.lt_of_not_le
  intro foreign
  obtain ⟨code, rest, encoded, high⟩ := head_utf8EncodeChar foreign
  have present : code ∈ ofText (String.ofList cs) := by
    rw [ofText_ofList]
    exact List.mem_flatMap.mpr ⟨c, among, by simp [encoded]⟩
  exact Nat.not_lt.mpr high (low code present)

end Bytes

namespace Text.Hex

def letter (code : UInt8) : Char := (Char.ofNat code.toNat).toLower

theorem nibble?_cases : ∀ code : Fin 256, (nibble? (UInt8.ofNat code)).all (fun n =>
    n.toNat < 16 && code.val < 128 && letter (UInt8.ofNat code) = digit n.toNat) = true := by
  decide +kernel

theorem nibble?_of_digit : ∀ code : Fin 128, ∀ n : Fin 16, letter (UInt8.ofNat code) = digit n →
    nibble? (UInt8.ofNat code) = some (UInt8.ofNat n) := by
  decide +kernel

theorem nibble?_eq_some_iff {code n : UInt8} :
    nibble? code = some n ↔ n.toNat < 16 ∧ code.toNat < 128 ∧ letter code = digit n.toNat := by
  constructor
  · intro found
    have cases := nibble?_cases ⟨code.toNat, code.toNat_lt⟩
    rw [UInt8.ofNat_toNat, found] at cases
    simpa [and_assoc] using cases
  · rintro ⟨small, ascii, same⟩
    have found := nibble?_of_digit ⟨code.toNat, ascii⟩ ⟨n.toNat, small⟩
    rw [UInt8.ofNat_toNat, UInt8.ofNat_toNat] at found
    exact found same

theorem toNat_nibbles {h l : UInt8} (high : h.toNat < 16) (low : l.toNat < 16) :
    (16 * h + l).toNat = 16 * h.toNat + l.toNat := by
  rw [UInt8.toNat_add, UInt8.toNat_mul]
  change (16 * h.toNat % 256 + l.toNat) % 256 = _
  omega

theorem write_cons (b : UInt8) (bytes : List UInt8) :
    write (b :: bytes) = digit (b.toNat / 16) :: digit (b.toNat % 16) :: write bytes := rfl

theorem length_write (bytes : List UInt8) : (write bytes).length = 2 * bytes.length := by
  induction bytes with
  | nil => rfl
  | cons b bytes ih =>
      rw [write_cons, List.length_cons, List.length_cons, List.length_cons, ih]
      omega

theorem write_of_readFrom {position : Nat} {codes bytes : List UInt8}
    (even : codes.length % 2 = 0) (ok : readFrom position codes = .ok bytes) :
    (∀ code ∈ codes, code.toNat < 128) ∧ codes.map letter = write bytes := by
  induction position, codes using readFrom.induct generalizing bytes with
  | case1 position high low rest unread =>
      simp [readFrom, unread] at ok
  | case2 position high low rest h read unread =>
      simp [readFrom, read, unread] at ok
  | case3 position high low rest h highRead l lowRead ih =>
      simp only [readFrom, highRead, lowRead] at ok
      cases later : readFrom (position + 2) rest with
      | error fault => simp [later, Except.map] at ok
      | ok following =>
          simp only [later, Except.map, Except.ok.injEq] at ok
          obtain ⟨ascii, same⟩ := ih (by simp at even; omega) later
          obtain ⟨hSmall, hAscii, hLetter⟩ := nibble?_eq_some_iff.mp highRead
          obtain ⟨lSmall, lAscii, lLetter⟩ := nibble?_eq_some_iff.mp lowRead
          have value : (16 * h + l).toNat = 16 * h.toNat + l.toNat := toNat_nibbles hSmall lSmall
          have upper : (16 * h + l).toNat / 16 = h.toNat := by omega
          have lower : (16 * h + l).toNat % 16 = l.toNat := by omega
          rw [← ok, write_cons, upper, lower]
          constructor
          · simpa [hAscii, lAscii] using ascii
          · simp [hLetter, lLetter, same]
  | case4 codes position short =>
      have none : codes = [] := by
        cases codes with
        | nil => rfl
        | cons high codes =>
            cases codes with
            | nil => simp at even
            | cons low rest => exact absurd rfl (short high low rest)
      subst none
      simp only [readFrom, Except.ok.injEq] at ok
      simp [← ok, write]

theorem readFrom_of_write {position : Nat} {codes bytes : List UInt8}
    (ascii : ∀ code ∈ codes, code.toNat < 128) (same : codes.map letter = write bytes) :
    readFrom position codes = .ok bytes := by
  induction bytes generalizing position codes with
  | nil =>
      have none : codes = [] := List.map_eq_nil_iff.mp same
      rw [none]
      rfl
  | cons b bytes ih =>
      rw [write_cons] at same
      obtain ⟨high, codes, rfl, hLetter, same⟩ := List.map_eq_cons_iff.mp same
      obtain ⟨low, rest, rfl, lLetter, same⟩ := List.map_eq_cons_iff.mp same
      have byte := b.toNat_lt
      have upper : (UInt8.ofNat (b.toNat / 16)).toNat = b.toNat / 16 := by
        rw [UInt8.toNat_ofNat']
        omega
      have lower : (UInt8.ofNat (b.toNat % 16)).toNat = b.toNat % 16 := by
        rw [UInt8.toNat_ofNat']
        omega
      have highRead : nibble? high = some (UInt8.ofNat (b.toNat / 16)) :=
        nibble?_eq_some_iff.mpr ⟨by omega, ascii high (by simp), by rw [upper, hLetter]⟩
      have lowRead : nibble? low = some (UInt8.ofNat (b.toNat % 16)) :=
        nibble?_eq_some_iff.mpr ⟨by omega, ascii low (by simp), by rw [lower, lLetter]⟩
      have whole : 16 * UInt8.ofNat (b.toNat / 16) + UInt8.ofNat (b.toNat % 16) = b := by
        rw [← UInt8.toNat_inj, toNat_nibbles (by omega) (by omega), upper, lower]
        omega
      have later : readFrom (position + 2) rest = .ok bytes :=
        ih (fun code among => ascii code (by simp [among])) same
      simp [readFrom, highRead, lowRead, later, Except.map, whole]

theorem ascii_of_toLower {c : Char} (ascii : c.toLower.toNat < 128) : c.toNat < 128 := by
  delta Char.toLower at ascii
  split at ascii
  case isTrue capital =>
    have last : c.toNat ≤ 'Z'.toNat := UInt32.le_iff_toNat_le.mp capital.2
    exact Nat.lt_of_le_of_lt last (by decide)
  case isFalse => exact ascii

theorem digit_ascii : ∀ n : Fin 16, (digit n).toNat < 128 := by
  decide

theorem mark_ne_digit : ∀ n : Fin 16, 'x'.toLower ≠ digit n := by
  decide

def Spells (digits : List Char) (bytes : List UInt8) : Prop :=
  digits.map Char.toLower = write bytes

instance (digits : List Char) (bytes : List UInt8) : Decidable (Spells digits bytes) :=
  inferInstanceAs (Decidable (_ = _))

theorem Spells.digit {digits : List Char} {bytes : List UInt8} (spells : Spells digits bytes)
    {c : Char} (among : c ∈ digits) : ∃ n : Fin 16, c.toLower = Hex.digit n := by
  have written : c.toLower ∈ write bytes := spells ▸ List.mem_map_of_mem among
  obtain ⟨b, -, place⟩ := List.mem_flatMap.mp written
  have byte := b.toNat_lt
  simp only [List.mem_cons, List.not_mem_nil, or_false] at place
  rcases place with upper | lower
  · exact ⟨⟨b.toNat / 16, by omega⟩, upper⟩
  · exact ⟨⟨b.toNat % 16, by omega⟩, lower⟩

theorem ascii_of_digit {c : Char} {n : Nat} (small : n < 16) (same : c.toLower = digit n) :
    c.toNat < 128 := by
  apply ascii_of_toLower
  rw [same]
  exact digit_ascii ⟨n, small⟩

theorem letter_ofNat {c : Char} (ascii : c.toNat < 128) :
    letter (UInt8.ofNat c.toNat) = c.toLower := by
  have same : (UInt8.ofNat c.toNat).toNat = c.toNat := by
    rw [UInt8.toNat_ofNat']
    omega
  rw [letter, same, Char.ofNat_toNat]

theorem read_eq_ok_iff {digits : List Char} {bytes : List UInt8} :
    read (Bytes.ofText (String.ofList digits)) = .ok bytes ↔ Spells digits bytes := by
  constructor
  · intro ok
    rw [read] at ok
    split at ok
    · cases ok
    · rename_i even
      obtain ⟨low, same⟩ := write_of_readFrom (by omega) ok
      have ascii := Bytes.ascii_of_ofText low
      rw [Bytes.ofText_of_ascii ascii, List.map_map] at same
      rw [Spells, ← same]
      exact List.map_congr_left fun c among => (letter_ofNat (ascii c among)).symm
  · intro spells
    have ascii : ∀ c ∈ digits, c.toNat < 128 := fun c among =>
      have ⟨n, same⟩ := spells.digit among
      ascii_of_digit n.isLt same
    have length : digits.length = 2 * bytes.length := by
      rw [← length_write bytes, ← spells, List.length_map]
    rw [read, Bytes.ofText_of_ascii ascii, if_neg (by rw [List.length_map]; omega)]
    apply readFrom_of_write
    · intro code among
      obtain ⟨c, present, rfl⟩ := List.mem_map.mp among
      have low := ascii c present
      rw [UInt8.toNat_ofNat']
      omega
    · rw [List.map_map, ← spells]
      exact List.map_congr_left fun c among => letter_ofNat (ascii c among)

end Text.Hex
end Tripwire
