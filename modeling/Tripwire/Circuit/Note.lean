import Tripwire.Circuit.Executor
import Tripwire.Condition.Logic
import Tripwire.Log.Entry
import Tripwire.Run.Constraint
import Tripwire.Signer.Identity

/-!
# Notes

What a circuit writes into its log. A note becomes an entry when it is read: with a category, a
message, and its context as JSON text.
-/
namespace Tripwire.Circuit

inductive Note where
  | matched (id : Nat) (satisfied : List Nat)
  | unmatched (id : Nat) (satisfied : List Nat)
  | evaluated (policy? : Option Condition.Policy) (outcome : Condition.Outcome)
      (satisfied : List Nat) (total : Nat)
  | compileFailed (fault : Fault)
  | startRefused (fault : Fault)
  | stoppedBeforeStart (counters : Run.Counters)
  | exhaustedBeforeStart (bound : Run.Bound) (counters : Run.Counters)
  | identityIssued (identity : Signer.Identity)
  | identityRefused (refusal : Signer.Refusal) (contentHash : String)
  | keyRefused (fault : Fault)
  | timedOut (id : Nat) (limitMillis : Nat)
  | observationFailed (id : Nat) (watcher error : String)
  | runCompleted (contentHash : String) (response : Value)
  | runFailed (contentHash : String) (failure : RunFailure)
  | exhausted (bound : Run.Bound) (counters : Run.Counters)
  deriving DecidableEq, Repr

namespace Note

def category : Note → Log.Category
  | .matched .. | .unmatched .. | .evaluated .. | .stoppedBeforeStart .. | .exhaustedBeforeStart ..
  | .timedOut .. | .exhausted .. => .condition
  | .compileFailed .. | .startRefused .. | .identityRefused .. | .keyRefused ..
  | .observationFailed .. | .runFailed .. => .error
  | .identityIssued .. | .runCompleted .. => .response

def policyText (policy? : Option Condition.Policy) : String :=
  (policy?.map Condition.Policy.text).getD "none"

def outcomeLabel : Condition.Outcome → String
  | .wait => "Continue"
  | .fire => "Fire"

def outcomeText : Condition.Outcome → String
  | .wait => "continue"
  | .fire => "fire"

def message : Note → String
  | .matched id _ => "condition " ++ toString id ++ " matched"
  | .unmatched id _ => "condition " ++ toString id ++ " unmatched"
  | .evaluated policy? outcome _ _ =>
      "logic " ++ policyText policy? ++ " evaluated to " ++ outcomeLabel outcome
  | .compileFailed fault => "action compilation failed: " ++ fault.message
  | .startRefused fault => "cannot start circuit: " ++ fault.message
  | .stoppedBeforeStart _ => "stop requested before start, circuit halted"
  | .exhaustedBeforeStart .. => "execution constraints exhausted before start, circuit halted"
  | .identityIssued _ => "signing identity issued"
  | .identityRefused refusal _ => "cannot start circuit: " ++ refusal.message
  | .keyRefused fault => "cannot start circuit: " ++ fault.message
  | .timedOut id _ => "condition " ++ toString id ++ " observation timed out"
  | .observationFailed id _ error =>
      "condition " ++ toString id ++ " observation failed: " ++ error
  | .runCompleted .. => "action run completed"
  | .runFailed _ failure => "action run failed: " ++ failure.message
  | .exhausted .. => "execution constraints exhausted, stopping circuit"

def idsValue (ids : List Nat) : Value := .list (ids.map .ofNat)

def boundFields (bound : Run.Bound) (counters : Run.Counters) : List (String × Value) :=
  [("bound", .str bound.text), ("counters", counters.write)]

def payload : Note → Value
  | .matched id satisfied | .unmatched id satisfied =>
      .map [("condition_id", .ofNat id), ("satisfied", idsValue satisfied)]
  | .evaluated policy? outcome satisfied total =>
      .map [("outcome", .str (outcomeText outcome)), ("policy", .str (policyText policy?)),
        ("satisfied", idsValue satisfied), ("total", .ofNat total)]
  | .compileFailed fault =>
      .map [("error", .str fault.message), ("phase", .str "compile actions")]
  | .startRefused fault => .map [("error", .str fault.message), ("phase", .str "start")]
  | .stoppedBeforeStart counters => .map [("counters", counters.write)]
  | .exhaustedBeforeStart bound counters => .map (boundFields bound counters)
  | .identityIssued identity =>
      .map [("derived_address", .str identity.address), ("issued_id", .str identity.issuedId),
        ("public_key", .str identity.publicKey)]
  | .identityRefused _ contentHash =>
      .map [("content_hash", .str contentHash), ("phase", .str "issue identity")]
  | .keyRefused _ => .map [("phase", .str "validate public key")]
  | .timedOut id limitMillis =>
      .map [("condition_id", .ofNat id), ("timeout_ms", .ofNat limitMillis)]
  | .observationFailed id watcher error =>
      .map [("condition_id", .ofNat id), ("error", .str error), ("phase", .str "observe condition"),
        ("watcher", .str watcher)]
  | .runCompleted contentHash response =>
      .map [("content_hash", .str contentHash), ("response", response)]
  | .runFailed contentHash _ =>
      .map [("content_hash", .str contentHash), ("phase", .str "execute script")]
  | .exhausted bound counters => .map (boundFields bound counters)

end Note

structure Noted where
  note : Note
  timestamp : Time.Instant
  deriving DecidableEq, Repr

def Noted.entry (n : Noted) : Log.Entry :=
  ⟨n.note.category, n.note.message, n.note.payload.toText, n.timestamp⟩

end Tripwire.Circuit
