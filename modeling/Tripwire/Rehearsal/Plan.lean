import Tripwire.Http.Router
import Tripwire.Rehearsal.Pattern
import Tripwire.Rehearsal.Echo
import Tripwire.Circuit.Process

/-!
# Plans

What happens to a circuit in a rehearsal: the operations that are called, how its watchers and its
executor behave and what they call themselves, and what is done while a start is under way. Times are
in milliseconds.
-/
namespace Tripwire.Rehearsal

inductive Misreading where
  | form
  | fault (fault : Fault)
  | category (text : String)
  deriving DecidableEq, Repr

mutual

inductive Act where
  | misread (misreading : Misreading)
  | setConditions (watchers : List WatcherPlan)
  | setLogic (logic : Condition.Logic)
  | setConstraints (constraints : Run.Constraints)
  | setActions (actions : List Action)
  | stop
  | state
  | logs (category? : Option Log.Category)
  | script (render : Bool)

inductive WatcherPlan where
  | pattern (pattern : Pattern)
  | steps (name description : String) (cycles : List (List WatchStep))

inductive WatchStep where
  | matched
  | unmatched
  | sleep (millis : Nat)
  | fail (error : String)
  | act (act : Act)

end

structure CallPlan where
  latencyMillis : Nat
  acts : List Act
  answer : Except Circuit.RunFailure Value

inductive ExecutorPlan where
  | echo (failFrom? : Option Nat)
  /-- The last of the calls stands for all further ones. -/
  | calls (calls : List CallPlan)

inductive IssuerPlan where
  | standard
  | fixed (identity : Signer.Identity)
  | failing (reason : String)

inductive Step where
  | act (act : Act)
  | sleep (millis : Nat)
  /-- Starts the circuit, with steps at times from the beginning of the start. -/
  | start (options : Circuit.Options) (meanwhile : List (Nat × Step))
  | http (method target : String)

structure Snapshot where
  status : Circuit.Status
  counters : Run.Counters
  satisfied : List Nat
  logSize : Nat
  deriving DecidableEq, Repr

inductive Outcome where
  | done
  | ids (ids : List Nat)
  | misread (misreading : Misreading)
  | refused (fault : Fault)
  | state (snapshot : Snapshot)
  | entries (entries : List Log.Entry)
  | script (script : Script) (render : Bool)
  | started (result : Except Circuit.StartError PUnit) (elapsedMillis : Nat)
      (meanwhile : List Outcome)
  | response (response : Http.Response)

inductive Trace where
  | observes (name : String) (number : Nat)
  | woke (name : String)
  | did (who : String) (outcome : Outcome)
  | executes (request : Circuit.Request)
  | executed

end Tripwire.Rehearsal
