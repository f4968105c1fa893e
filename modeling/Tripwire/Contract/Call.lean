import Tripwire.Contract.Word
import Tripwire.Digest.Keccak
import Tripwire.Fault
import Tripwire.Value.Basic

/-!
# Call data

A call is encoded as four bytes of the digest of the function's signature and the arguments. Each
argument has a word in the head; that of a dynamic one is the offset of its place in the tail, where
its length and its bytes stand, filled up with zeros to whole words.
-/
namespace Tripwire.Contract

def hexBytes (arg : Value) : Except ArgumentFault (List UInt8) :=
  match arg with
  | .str s =>
      let digits := match s.toList with
        | '0' :: 'x' :: rest => rest
        | digits => digits
      match Text.Hex.read (Bytes.ofText (String.ofList digits)) with
      | .ok bytes => .ok bytes
      | .error fault => .error (.hex fault)
  | _ => .error .notHexString

def readMagnitude (digits : List Char) : Except ArgumentFault Word :=
  match digits with
  | '0' :: 'x' :: hex => Word.read 16 hex
  | decimal => Word.read 10 decimal

def readInteger (arg : Value) : Except ArgumentFault (Bool × Word) :=
  match arg with
  | .int n => .ok (n < 0, Word.ofNat n.natAbs)
  | .float _ => .error .notInteger
  | .str s =>
      match s.toList with
      | '-' :: digits => (readMagnitude digits).map (true, ·)
      | digits => (readMagnitude digits).map (false, ·)
  | _ => .error .notIntegerString

def rightAligned (size : Nat) (bytes : List UInt8) : Except ArgumentFault Word :=
  if h : bytes.length = size ∧ size ≤ 32 then
    .ok ⟨List.replicate (32 - size) 0 ++ bytes, by simp; omega⟩
  else .error (.byteCount size bytes.length)

def leftAligned (size : Nat) (bytes : List UInt8) : Except ArgumentFault Word :=
  if h : bytes.length = size ∧ size ≤ 32 then
    .ok ⟨bytes ++ List.replicate (32 - size) 0, by simp; omega⟩
  else .error (.byteCount size bytes.length)

def boolWord (b : Bool) : Word := Word.ofNat (if b then 1 else 0)

def encodeStatic (type : ParamType) (arg : Value) : Except ArgumentFault Word :=
  match type with
  | .address => (hexBytes arg).bind (rightAligned 20)
  | .bool =>
      match arg with
      | .bool b => .ok (boolWord b)
      | .str s =>
          if s = "true" then .ok (boolWord true)
          else if s = "false" then .ok (boolWord false)
          else .error .notBoolean
      | _ => .error .notBoolean
  | .uint bits =>
      match readInteger arg with
      | .error fault => .error fault
      | .ok (negative, word) =>
          if negative && !word.isZero then .error .negative
          else if bits < word.bitLength then .error (.tooWide bits)
          else .ok word
  | .int bits =>
      match readInteger arg with
      | .error fault => .error fault
      | .ok (negative, word) =>
          let fits := word.bitLength < bits ||
            (negative && word.bitLength = bits && word.isPowerOfTwo)
          if !fits then .error (.tooWide bits)
          else .ok (if negative then word.negate else word)
  | .fixedBytes size => (hexBytes arg).bind (leftAligned size)
  | .bytes | .string => .error .dynamicType

def dynamicBytes (type : ParamType) (arg : Value) : Except ArgumentFault (List UInt8) :=
  match type with
  | .string =>
      match arg with
      | .str s => .ok (Bytes.ofText s)
      | _ => .error .notString
  | _ => hexBytes arg

def padRight (bytes : List UInt8) : List UInt8 :=
  bytes ++ List.replicate ((bytes.length + 31) / 32 * 32 - bytes.length) 0

structure Encoding where
  head : List UInt8
  tail : List UInt8

/-- Appends one argument. Offsets count from the beginning of the head. -/
def Encoding.add (headSize : Nat) (e : Encoding) (type : ParamType) (arg : Value) :
    Except ArgumentFault Encoding :=
  if type.isDynamic then
    (dynamicBytes type arg).map fun bytes =>
      { head := e.head ++ (Word.ofNat (headSize + e.tail.length)).bytes
        tail := e.tail ++ (Word.ofNat bytes.length).bytes ++ padRight bytes }
  else
    (encodeStatic type arg).map fun word => { e with head := e.head ++ word.bytes }

def encodeFrom (headSize : Nat) :
    Nat → Encoding → List (ParamType × Value) → Except Fault Encoding
  | _, e, [] => .ok e
  | index, e, (type, arg) :: rest =>
      match e.add headSize type arg with
      | .ok e => encodeFrom headSize (index + 1) e rest
      | .error reason => .error (.invalidArgument index type reason)

def encodeParams (types : List ParamType) (args : List Value) : Except Fault (List UInt8) :=
  (encodeFrom (32 * types.length) 0 ⟨[], []⟩ (types.zip args)).map fun e => e.head ++ e.tail

def inputsOf (fragment : Value) : List Value :=
  ((fragment.get? "inputs").bind Value.list?).getD []

/-- Whether a fragment declares a function of that name. A fragment without a type is a function. -/
def declares (function : String) (fragment : Value) : Bool :=
  (fragment.get? "type").all (·.str? = some "function") &&
    (fragment.get? "name").bind Value.str? = some function

def inputType (input : Value) : String := ((input.get? "type").bind Value.str?).getD ""

def readTypes : List Value → Except AbiFault (List ParamType)
  | [] => .ok []
  | input :: rest =>
      match ParamType.read? (inputType input) with
      | none => .error (.unsupported (inputType input))
      | some type => (readTypes rest).map (type :: ·)

def select (abi : Value) (function : String) (arity : Nat) : Except AbiFault Value :=
  match abi with
  | .list fragments =>
      let candidates := fragments.filter (declares function)
      if candidates.isEmpty then .error .undeclared
      else
        match candidates.find? fun f => (inputsOf f).length = arity with
        | some fragment => .ok fragment
        | none => .error (.noOverload arity)
  | _ => .error .notList

def signature (function : String) (types : List ParamType) : String :=
  function ++ "(" ++ String.intercalate "," (types.map ParamType.canonical) ++ ")"

def selector (function : String) (types : List ParamType) : List UInt8 :=
  (Digest.Keccak.hash (Bytes.ofText (signature function types))).take 4

def encodeCall (abi : Value) (function : String) (args : List Value) : Except Fault String :=
  match select abi function args.length with
  | .error reason => .error (.invalidAbi function reason)
  | .ok fragment =>
      match readTypes (inputsOf fragment) with
      | .error reason => .error (.invalidAbi function reason)
      | .ok types =>
          (encodeParams types args).map fun data =>
            String.ofList ('0' :: 'x' :: Text.Hex.write (selector function types ++ data))

end Tripwire.Contract
