/-!
# UTF-8

Bytes are read as characters one at a time. Where they are ill-formed, the longest beginning of a
character that could still have been completed counts as one fault.
-/
namespace Tripwire.Text.Utf8

def lead? (b : UInt8) : Option (Nat × Nat × UInt8 × UInt8) :=
  if b < 0x80 then some (b.toNat, 0, 0x80, 0xBF)
  else if b < 0xC2 then none
  else if b < 0xE0 then some (b.toNat - 0xC0, 1, 0x80, 0xBF)
  else if b = 0xE0 then some (0, 2, 0xA0, 0xBF)
  else if b = 0xED then some (0xD, 2, 0x80, 0x9F)
  else if b < 0xF0 then some (b.toNat - 0xE0, 2, 0x80, 0xBF)
  else if b = 0xF0 then some (0, 3, 0x90, 0xBF)
  else if b < 0xF4 then some (b.toNat - 0xF0, 3, 0x80, 0xBF)
  else if b = 0xF4 then some (4, 3, 0x80, 0x8F)
  else none

def follow (n : Nat) (low high : UInt8) : Nat → List UInt8 → Option Nat × List UInt8
  | 0, rest => (some n, rest)
  | _ + 1, [] => (none, [])
  | count + 1, b :: rest =>
      if low ≤ b ∧ b ≤ high then follow (64 * n + (b.toNat - 0x80)) 0x80 0xBF count rest
      else (none, b :: rest)

theorem length_follow (n : Nat) (low high : UInt8) (count : Nat) (bytes : List UInt8) :
    (follow n low high count bytes).2.length ≤ bytes.length := by
  induction count generalizing n low high bytes with
  | zero => simp [follow]
  | succ count ih =>
      cases bytes with
      | nil => simp [follow]
      | cons b rest =>
          simp only [follow]
          split
          · exact Nat.le_succ_of_le (ih ..)
          · simp

def next (b : UInt8) (rest : List UInt8) : Option Char × List UInt8 :=
  match lead? b with
  | none => (none, rest)
  | some (n, count, low, high) =>
      let (code?, rest) := follow n low high count rest
      (code?.map Char.ofNat, rest)

theorem length_next (b : UInt8) (rest : List UInt8) : (next b rest).2.length ≤ rest.length := by
  unfold next
  split
  · simp
  · exact length_follow ..

def scan : List UInt8 → List (Option Char)
  | [] => []
  | b :: bytes =>
      have : (next b bytes).2.length < bytes.length + 1 := Nat.lt_succ_of_le (length_next b bytes)
      (next b bytes).1 :: scan (next b bytes).2
termination_by bytes => bytes.length

def decode? (bytes : List UInt8) : Option String :=
  ((scan bytes).mapM id).map String.ofList

def decodeLossy (bytes : List UInt8) : String :=
  String.ofList ((scan bytes).map (·.getD '\ufffd'))

end Tripwire.Text.Utf8
