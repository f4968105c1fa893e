import Tripwire.Circuit.Executor
import Tripwire.Bytes
import Tripwire.Script.Compile

/-!
# The echo executor

It runs nothing and answers with what it was asked to run, without the values of the parameters. From
a given run on it can refuse.
-/
namespace Tripwire.Rehearsal

structure Echo where
  runs : Nat
  failFrom? : Option Nat
  deriving DecidableEq, Repr

namespace Echo

def start (failFrom? : Option Nat) : Echo := ⟨0, failFrom?⟩

def report (run : Nat) (request : Circuit.Request) : Value :=
  .object [("run", .ofNat run), ("contentHash", .str request.contentHash),
    ("codeLength", .ofNat request.code.utf8ByteSize),
    ("params", .list (request.params.map fun (name, _) => .str name)),
    ("authenticated", .bool (request.params.lookup Script.apiKeysParam).isSome)]

/-- Counts a run and answers it. An empty script fails even when the run is refused. -/
def execute (echo : Echo) (request : Circuit.Request) :
    Echo × Except Circuit.RunFailure Value :=
  let run := echo.runs + 1
  let answer :=
    if request.code.isEmpty then .error (.script "empty script")
    else if echo.failFrom?.any (· ≤ run) then
      .error (.unavailable ("virtual executor refused run " ++ toString run))
    else .ok (report run request)
  ({ echo with runs := run }, answer)

end Echo
end Tripwire.Rehearsal
