import Tripwire.Action.Basic

/-!
# The form of actions

The field `type` names the kind of an action. In a list it comes first.
-/
namespace Tripwire

def CustomAction.read? (style : Form.Style) (v : Value) : Option CustomAction := do
  let fields ← Form.record? style ["priority", "code"] v
  let priority ← Form.required fields "priority" Form.u32
  let code ← Form.required fields "code" Form.text
  pure ⟨priority, code⟩

def FetchAction.read? (style : Form.Style) (v : Value) : Option FetchAction := do
  let fields ← Form.record? style
    ["priority", "base_url", "endpoint", "response_path", "api_key", "sign_condition", "to_sign"] v
  let priority ← Form.required fields "priority" Form.u32
  let baseUrl ← Form.required fields "base_url" Form.text
  let endpoint ← Form.required fields "endpoint" Form.text
  let responsePath ← Form.required fields "response_path" Form.text
  let apiKey? ← Form.optional fields "api_key" Form.text
  let signConditions ← Form.defaulted fields "sign_condition" []
    (Form.list (Action.SignCondition.read? style))
  let toSign ← Form.defaulted fields "to_sign" [] (Form.list Form.u8)
  pure ⟨priority, baseUrl, endpoint, responsePath, apiKey?, signConditions, toSign⟩

def ContractAction.read? (style : Form.Style) (v : Value) : Option ContractAction := do
  let fields ← Form.record? style
    ["priority", "contract_address", "abi", "function_name", "args", "chain", "nonce", "gas_limit",
      "value", "max_priority_fee_per_gas", "max_fee_per_gas"] v
  let priority ← Form.required fields "priority" Form.u32
  let address ← Form.required fields "contract_address" Form.text
  let abi ← Form.required fields "abi" (some <| style.free ·)
  let function ← Form.required fields "function_name" Form.text
  let args ← Form.defaulted fields "args" [] (Form.list (some <| style.free ·))
  let chain ← Form.required fields "chain" Form.text
  let nonce? ← Form.optional fields "nonce" Form.u64
  let gasLimit? ← Form.optional fields "gas_limit" Form.text
  let value? ← Form.optional fields "value" Form.text
  let maxPriorityFee? ← Form.optional fields "max_priority_fee_per_gas" Form.text
  let maxFee? ← Form.optional fields "max_fee_per_gas" Form.text
  pure ⟨priority, address, abi, function, args, chain, nonce?, gasLimit?, value?, maxPriorityFee?,
    maxFee?⟩

namespace Action

def readAs? (style : Form.Style) (kind : Kind) (v : Value) : Option Action :=
  match kind with
  | .custom => (CustomAction.read? style.tagged v).map .custom
  | .fetch => (FetchAction.read? style.tagged v).map .fetch
  | .contract => (ContractAction.read? style.tagged v).map .contract

def readKind? (v : Value) : Option Kind := (Form.text v).bind fun s => Kind.names.lookup s

def read? (style : Form.Style) (v : Value) : Option Action :=
  match v with
  | .map fields => do
      let kind ← Form.required fields "type" readKind?
      readAs? style kind v
  | .list (first :: rest) => do
      let kind ← readKind? first
      readAs? style kind (.list rest)
  | _ => none

def fields : Action → List (String × Value)
  | .custom a => [("priority", .ofNat a.priority), ("code", .str a.code)]
  | .fetch a =>
      [("priority", .ofNat a.priority), ("base_url", .str a.baseUrl), ("endpoint", .str a.endpoint),
        ("response_path", .str a.responsePath)] ++
      Form.field? "api_key" .str a.apiKey? ++
      [("sign_condition", .list (a.signConditions.map SignCondition.write)),
        ("to_sign", .list (a.toSign.map .ofNat))]
  | .contract a =>
      [("priority", .ofNat a.priority), ("contract_address", .str a.address), ("abi", a.abi),
        ("function_name", .str a.function), ("args", .list a.args), ("chain", .str a.chain)] ++
      Form.field? "nonce" .ofNat a.nonce? ++
      Form.field? "gas_limit" .str a.gasLimit? ++
      Form.field? "value" .str a.value? ++
      Form.field? "max_priority_fee_per_gas" .str a.maxPriorityFee? ++
      Form.field? "max_fee_per_gas" .str a.maxFee?

def write (a : Action) : Value := .map (("type", .str a.kind.text) :: a.fields)

end Action
end Tripwire
