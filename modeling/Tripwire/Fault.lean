import Tripwire.Contract.CallFault

/-!
# Faults of a configuration

Everything that keeps a circuit from ever running as it is configured.
-/
namespace Tripwire

inductive Fault where
  | noConditions
  | noActions
  | duplicatePriority (priority : Nat)
  | incompleteLogic (logic field : String)
  | unknownChain (chain : String) (valid : List String)
  | invalidAddress (address : String)
  | invalidAbi (function : String) (reason : Contract.AbiFault)
  | invalidArgument (index : Nat) (type : Contract.ParamType) (reason : Contract.ArgumentFault)
  | malformedPublicKey (key : String)
  | alreadyRunning
  | halted
  deriving DecidableEq, Repr

def Fault.message : Fault → String
  | .noConditions => "no conditions have been set"
  | .noActions => "no actions have been set"
  | .duplicatePriority priority => "duplicate action priority " ++ toString priority
  | .incompleteLogic logic field =>
      "conditional logic " ++ logic ++ " is missing its " ++ field
  | .unknownChain chain valid =>
      "invalid chain `" ++ chain ++ "`, valid chains are: " ++ String.intercalate ", " valid
  | .invalidAddress address => "invalid contract address `" ++ address ++ "`"
  | .invalidAbi function reason =>
      "invalid ABI for function `" ++ function ++ "`: " ++ reason.message
  | .invalidArgument index type reason =>
      "cannot encode argument " ++ toString index ++ " as `" ++ type.canonical ++ "`: " ++
        reason.message
  | .malformedPublicKey key => "malformed signing public key `" ++ key ++ "`"
  | .alreadyRunning => "circuit is already running"
  | .halted => "circuit has halted and cannot be restarted"

end Tripwire
