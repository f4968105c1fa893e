import Tripwire.Action.Basic
import Tripwire.Contract.Call
import Tripwire.Contract.Chain

/-!
# Unsigned transactions

What is handed over for signing: a contract call with its chain and fees. The sender is a placeholder
until the signer's address is known.
-/
namespace Tripwire.Contract

structure Transaction where
  recipient : String
  nonce : Nat
  chainId : Nat
  gasLimit : String
  sender : String
  value : String
  data : String
  maxPriorityFee? : Option String
  maxFee? : Option String
  type : Nat
  deriving DecidableEq, Repr

namespace Transaction

def senderPlaceholder : String := "\x7b\x7bsignerAddress\x7d\x7d"

def defaultGasLimit : String := "50000"
def defaultValue : String := "0"

def feeMarketType : Nat := 2

def isAddress (address : String) : Bool :=
  match address.toList with
  | '0' :: 'x' :: digits => digits.length = 40 && digits.all Text.Hex.isDigit
  | _ => false

/-- The transaction of a contract action. The chain is looked at first, then the address, then the
call. -/
def ofAction (a : ContractAction) : Except Fault Transaction :=
  match Chain.resolve a.chain with
  | .error fault => .error fault
  | .ok chain =>
      if !isAddress a.address then .error (.invalidAddress a.address)
      else
        match encodeCall a.abi a.function a.args with
        | .error fault => .error fault
        | .ok data =>
            .ok {
              recipient := a.address
              nonce := a.nonce?.getD 0
              chainId := chain.id
              gasLimit := a.gasLimit?.getD defaultGasLimit
              sender := senderPlaceholder
              value := a.value?.getD defaultValue
              data := data
              maxPriorityFee? := a.maxPriorityFee?
              maxFee? := a.maxFee?
              type := feeMarketType }

def read? (style : Form.Style) (v : Value) : Option Transaction := do
  let fields ← Form.record? style
    ["to", "nonce", "chainId", "gasLimit", "from", "value", "data", "maxPriorityFeePerGas",
      "maxFeePerGas", "type"] v
  let recipient ← Form.required fields "to" Form.text
  let nonce ← Form.required fields "nonce" Form.u64
  let chainId ← Form.required fields "chainId" Form.u64
  let gasLimit ← Form.required fields "gasLimit" Form.text
  let sender ← Form.required fields "from" Form.text
  let value ← Form.required fields "value" Form.text
  let data ← Form.required fields "data" Form.text
  let maxPriorityFee? ← Form.optional fields "maxPriorityFeePerGas" Form.text
  let maxFee? ← Form.optional fields "maxFeePerGas" Form.text
  let type ← Form.required fields "type" Form.u8
  pure ⟨recipient, nonce, chainId, gasLimit, sender, value, data, maxPriorityFee?, maxFee?, type⟩

def fieldsBefore (t : Transaction) : List (String × Value) :=
  [("to", .str t.recipient), ("nonce", .ofNat t.nonce), ("chainId", .ofNat t.chainId),
    ("gasLimit", .str t.gasLimit)]

def fieldsAfter (t : Transaction) : List (String × Value) :=
  [("value", .str t.value), ("data", .str t.data)] ++
  Form.field? "maxPriorityFeePerGas" .str t.maxPriorityFee? ++
  Form.field? "maxFeePerGas" .str t.maxFee? ++
  [("type", .ofNat t.type)]

def write (t : Transaction) : Value :=
  .map (t.fieldsBefore ++ ("from", .str t.sender) :: t.fieldsAfter)

end Transaction
end Tripwire.Contract
