import Tripwire.Action.Form
import Tripwire.Config.Basic

/-!
# The form of configurations

A configuration is a record of records: the server, the logging, and the run of the circuit, then the
logic, the constraints, the conditions and the actions. Only what stands within these can be missing
its parts.
-/
namespace Tripwire.Config

def Condition.read? (style : Form.Style) (v : Value) : Option Condition := do
  let fields ← Form.record? style ["name", "pattern", "latency_ms"] v
  let name ← Form.required fields "name" Form.text
  let observations ← Form.defaulted fields "pattern" []
    (Form.list (Form.name style Rehearsal.Observation.names))
  let latencyMillis ← Form.defaulted fields "latency_ms" 0 Form.u64
  pure ⟨name, observations, latencyMillis⟩

def readLogic? (style : Form.Style) (v : Value) : Option Tripwire.Condition.Logic :=
  (Tripwire.Condition.LogicForm.read? style v).bind fun form =>
    (Tripwire.Condition.Logic.ofForm form).toOption

def readMap? (style : Form.Style) (v : Value) : Option (List (String × Value)) :=
  match style.free v with
  | .map fields => some fields
  | _ => none

def readServer? (style : Form.Style) (c : Config) (v : Value) : Option Config := do
  let fields ← Form.record? style ["host", "port"] v
  let host ← Form.defaulted fields "host" c.host Form.text
  let port ← Form.defaulted fields "port" c.port Form.u16
  pure { c with host := host, port := port }

def readLogging? (style : Form.Style) (c : Config) (v : Value) : Option Config := do
  let fields ← Form.record? style ["filter"] v
  let filter ← Form.defaulted fields "filter" c.filter Form.text
  pure { c with filter := filter }

def readCircuit? (style : Form.Style) (c : Config) (v : Value) : Option Config := do
  let fields ← Form.record? style ["public_key", "auth_sig", "params"] v
  let publicKey? ← Form.optional fields "public_key" Form.text
  let authSig ← Form.defaulted fields "auth_sig" c.authSig (some <| style.free ·)
  let params ← Form.defaulted fields "params" c.params (readMap? style)
  pure { c with publicKey? := publicKey?, authSig := authSig, params := params }

def read? (style : Form.Style) (v : Value) : Option Config := do
  let fields ← Form.record? style
    ["server", "logging", "circuit", "logic", "constraints", "conditions", "actions"] v
  let c := standard
  let c ← Form.defaulted fields "server" c (readServer? style c)
  let c ← Form.defaulted fields "logging" c (readLogging? style c)
  let c ← Form.defaulted fields "circuit" c (readCircuit? style c)
  let logic? ← Form.optional fields "logic" (readLogic? style)
  let constraints? ← Form.optional fields "constraints" (Run.Constraints.read? style)
  let conditions ← Form.defaulted fields "conditions" [] (Form.list (Condition.read? style))
  let actions ← Form.defaulted fields "actions" [] (Form.list (Action.read? style))
  pure { c with
    logic? := logic?, constraints? := constraints?, conditions := conditions, actions := actions }

end Tripwire.Config
