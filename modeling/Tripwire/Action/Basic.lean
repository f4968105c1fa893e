import Tripwire.Action.SignCondition
import Tripwire.Text.Numeral

/-!
# Actions

What a circuit does when it fires: code of the user's own, a fetch whose result may be signed, or a
call of a contract. The priority orders the actions, and names each of them together with its kind.
-/
namespace Tripwire

structure CustomAction where
  priority : Nat
  code : String
  deriving DecidableEq, Repr

structure FetchAction where
  priority : Nat
  baseUrl : String
  endpoint : String
  responsePath : String
  apiKey? : Option String
  signConditions : List Action.SignCondition
  toSign : List Nat
  deriving DecidableEq, Repr

structure ContractAction where
  priority : Nat
  address : String
  abi : Value
  function : String
  args : List Value
  chain : String
  nonce? : Option Nat
  gasLimit? : Option String
  value? : Option String
  maxPriorityFee? : Option String
  maxFee? : Option String
  deriving DecidableEq, Repr

inductive Action where
  | custom (action : CustomAction)
  | fetch (action : FetchAction)
  | contract (action : ContractAction)
  deriving DecidableEq, Repr

def FetchAction.url (a : FetchAction) : String :=
  let base := (a.baseUrl.toList.reverse.dropWhile (· == '/')).reverse
  String.ofList (base ++ '/' :: a.endpoint.toList.dropWhile (· == '/'))

namespace Action

inductive Kind where
  | custom
  | fetch
  | contract
  deriving DecidableEq, Repr

def Kind.text : Kind → String
  | .custom => "custom"
  | .fetch => "fetch"
  | .contract => "contract"

def Kind.names : List (String × Kind) :=
  [("custom", .custom), ("fetch", .fetch), ("contract", .contract)]

def kind : Action → Kind
  | .custom _ => .custom
  | .fetch _ => .fetch
  | .contract _ => .contract

def priority : Action → Nat
  | .custom a => a.priority
  | .fetch a => a.priority
  | .contract a => a.priority

def Kind.unitName (kind : Kind) (priority : Nat) : String :=
  String.ofList (kind.text.toList ++ Text.Numeral.write priority)

def unitName (a : Action) : String := a.kind.unitName a.priority

def text : Action → String
  | .custom a => "custom(priority " ++ toString a.priority ++ ")"
  | .fetch a => "fetch(" ++ a.url ++ ", priority " ++ toString a.priority ++ ")"
  | .contract a =>
      "contract(" ++ a.address ++ "." ++ a.function ++ " on " ++ a.chain ++ ", priority " ++
        toString a.priority ++ ")"

end Action
end Tripwire
