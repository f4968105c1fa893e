import Tripwire.Config.Load
import Tripwire.Proofs.Action.RoundTrip
import Tripwire.Proofs.Action.Signing
import Tripwire.Proofs.Circuit.Aggregation
import Tripwire.Proofs.Circuit.AuditTrail
import Tripwire.Proofs.Circuit.Endings
import Tripwire.Proofs.Circuit.Exhaustion
import Tripwire.Proofs.Circuit.Issuance
import Tripwire.Proofs.Circuit.Refusals
import Tripwire.Proofs.Circuit.Requests
import Tripwire.Proofs.Condition.Forms
import Tripwire.Proofs.Config.Bind
import Tripwire.Proofs.Config.Numbering
import Tripwire.Proofs.Contract.Layout
import Tripwire.Proofs.Contract.Overload
import Tripwire.Proofs.Contract.Range
import Tripwire.Proofs.Http.Surface
import Tripwire.Proofs.Rehearsal.Replay
import Tripwire.Proofs.Rehearsal.Secrecy
import Tripwire.Proofs.Script.Agreement
import Tripwire.Proofs.Script.Assignments
import Tripwire.Proofs.Script.Fetches
import Tripwire.Proofs.Script.Increments
import Tripwire.Proofs.Script.Lookups
import Tripwire.Proofs.Script.Reports
import Tripwire.Proofs.Script.Transactions
import Tripwire.Rehearsal.Launch
import Tripwire.Rehearsal.Signals
import Tripwire.Value.Read
import Tripwire.Value.Text
import Tripwire.Proofs.Rehearsal.Conformance
