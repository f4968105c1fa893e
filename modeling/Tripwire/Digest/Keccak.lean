/-!
# Keccak-256

The sponge with a rate of 136 bytes over a state of 25 lanes of 64 bits, the lane of column `x` and
row `y` at `x + 5y`. The message is padded with the bit pattern `10…01`. The digest is the first four
lanes, least significant byte first.
-/
namespace Tripwire.Digest.Keccak

abbrev State := Vector UInt64 25

def rotateLeft (x : UInt64) (n : Nat) : UInt64 :=
  if n = 0 then x else (x <<< n.toUInt64) ||| (x >>> (64 - n).toUInt64)

def lane (s : State) (x y : Nat) : UInt64 :=
  s.get ⟨x % 5 + 5 * (y % 5), by omega⟩

def offsets : Vector Nat 25 :=
  #v[0, 1, 62, 28, 27, 36, 44, 6, 55, 20, 3, 10, 43, 25, 39, 41, 45, 15, 21, 8, 18, 2, 61, 56, 14]

def constants : List UInt64 :=
  [0x0000000000000001, 0x0000000000008082, 0x800000000000808A, 0x8000000080008000,
   0x000000000000808B, 0x0000000080000001, 0x8000000080008081, 0x8000000000008009,
   0x000000000000008A, 0x0000000000000088, 0x0000000080008009, 0x000000008000000A,
   0x000000008000808B, 0x800000000000008B, 0x8000000000008089, 0x8000000000008003,
   0x8000000000008002, 0x8000000000000080, 0x000000000000800A, 0x800000008000000A,
   0x8000000080008081, 0x8000000000008080, 0x0000000080000001, 0x8000000080008008]

def parity (s : State) (x : Nat) : UInt64 :=
  lane s x 0 ^^^ lane s x 1 ^^^ lane s x 2 ^^^ lane s x 3 ^^^ lane s x 4

def theta (s : State) : State :=
  let sheet := Vector.ofFn (n := 5) fun x =>
    parity s (x.val + 4) ^^^ rotateLeft (parity s (x.val + 1)) 1
  Vector.ofFn fun i => s[i] ^^^ sheet.get ⟨i.val % 5, by omega⟩

def rhoPi (s : State) : State :=
  Vector.ofFn fun i =>
    let x := i.val % 5
    let y := i.val / 5
    let source := (x + 3 * y) % 5 + 5 * x
    rotateLeft (s.get ⟨source, by omega⟩) (offsets.get ⟨source, by omega⟩)

def chi (s : State) : State :=
  Vector.ofFn fun i =>
    let x := i.val % 5
    let y := i.val / 5
    s[i] ^^^ (~~~lane s (x + 1) y &&& lane s (x + 2) y)

def round (s : State) (constant : UInt64) : State :=
  let s := chi (rhoPi (theta s))
  s.set 0 (s[0] ^^^ constant)

def permute (s : State) : State := constants.foldl round s

def wordOf (bytes : List UInt8) : UInt64 :=
  bytes.foldr (fun b w => (w <<< 8) ||| b.toUInt64) 0

def absorbBlock (s : State) (block : List UInt8) : State :=
  permute (Vector.ofFn fun i => s[i] ^^^ wordOf ((block.drop (8 * i.val)).take 8))

def pad (message : List UInt8) : List UInt8 :=
  let room := 136 - message.length % 136
  if room = 1 then message ++ [0x81] else message ++ 0x01 :: List.replicate (room - 2) 0 ++ [0x80]

def absorb (s : State) : Nat → List UInt8 → State
  | 0, _ => s
  | blocks + 1, bytes => absorb (absorbBlock s (bytes.take 136)) blocks (bytes.drop 136)

def laneBytes (w : UInt64) : List UInt8 :=
  (List.range 8).map fun i => (w.toNat / Nat.pow 256 i).toUInt8

def hash (message : List UInt8) : List UInt8 :=
  let padded := pad message
  let s := absorb (Vector.replicate 25 0) (padded.length / 136) padded
  [s[0], s[1], s[2], s[3]].flatMap laneBytes

theorem length_hash (message : List UInt8) : (hash message).length = 32 := by
  simp [hash, laneBytes]

end Tripwire.Digest.Keccak
