import Tripwire.Form

/-!
# Executors

An executor is handed a script with its parameters, and answers with a value or a failure.
-/
namespace Tripwire.Circuit

structure Request where
  code : String
  contentHash : String
  authSig : Value
  params : List (String × Value)
  deriving DecidableEq, Repr

inductive RunFailure where
  | unavailable (reason : String)
  | script (reason : String)
  deriving DecidableEq, Repr

def RunFailure.message : RunFailure → String
  | .unavailable reason => "executor unavailable: " ++ reason
  | .script reason => "script failed: " ++ reason

end Tripwire.Circuit
