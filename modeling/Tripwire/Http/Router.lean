import Tripwire.Circuit.State
import Tripwire.Http.Query

/-!
# The HTTP surface

A circuit can be looked at and stopped over HTTP: its health, its status, its log by category, and the
request to stop.
-/
namespace Tripwire.Http

inductive Body where
  | none
  | text (s : String)
  | value (v : Value)
  deriving DecidableEq, Repr

structure Response where
  status : Nat
  body : Body
  deriving DecidableEq, Repr

inductive Route where
  | health
  | logs
  | status
  | stop
  deriving DecidableEq, Repr

def Route.paths : List (String × Route) :=
  [("/health", .health), ("/api/logs", .logs), ("/api/status", .status), ("/api/stop", .stop)]

/-- The route of a path. Paths are compared as they stand, without decoding. -/
def Route.ofPath? (path : String) : Option Route := paths.lookup path

/-- Whether a route takes a method. What can be fetched can also be asked for its head alone. -/
def Route.takes (route : Route) (method : String) : Bool :=
  match route with
  | .stop => method = "POST"
  | _ => method = "GET" || method = "HEAD"

def isSchemeChar (c : Char) : Bool := c.isAlphanum || c = '+' || c = '-' || c = '.' || c = '~'

/-- The rest of an absolute target after its scheme and its authority. A target that names no scheme
stays as it is. -/
def afterAuthority (target : List Char) : List Char :=
  match target.dropWhile isSchemeChar with
  | ':' :: '/' :: '/' :: rest => rest.dropWhile fun c => c ≠ '/' && c ≠ '?'
  | _ => target

/-- The path and the query of a target. A fragment is dropped. -/
def splitTarget (target : String) : String × List Char :=
  let text := target.toList.takeWhile (· ≠ '#')
  let (path, query) := splitFirst '?' (afterAuthority text)
  (String.ofList path, query)

def statusValue (c : Circuit) : Value :=
  .map [("status", .str c.status.text), ("counters", c.counters.write),
    ("satisfied", .list (c.satisfied.ids.map .ofNat)),
    ("contentHash", .str c.script.contentHash),
    ("units", .list (c.script.routines.map fun r => .str r.name))]

def valuesOf (name : String) (query : List (String × String)) : List String :=
  (query.filter (·.1 = name)).map Prod.snd

/-- The log, of one category if the query names one. It must not name two. -/
def logsResponse (c : Circuit) (query : List Char) : Response :=
  let answer (category? : Option Log.Category) : Response :=
    ⟨200, .value (.list ((c.entries category?).map Log.Entry.write))⟩
  match valuesOf "category" (readQuery query) with
  | [] => answer none
  | [text] =>
      match Log.Category.read? text with
      | some category => answer (some category)
      | none => ⟨400, .value (.map [("error", .str (Log.Category.unknownMessage text))])⟩
  | _ => ⟨400, .none⟩

def serve (c : Circuit) (route : Route) (query : List Char) : Circuit × Response :=
  match route with
  | .health => (c, ⟨200, .text "OK"⟩)
  | .logs => (c, logsResponse c query)
  | .status => (c, ⟨200, .value (statusValue c)⟩)
  | .stop => (c.stop, ⟨202, .text ""⟩)

def Response.head (r : Response) : Response :=
  ⟨r.status, if r.status < 300 then .text "" else .none⟩

def respond (c : Circuit) (method target : String) : Circuit × Response :=
  let (path, query) := splitTarget target
  match Route.ofPath? path with
  | none => (c, ⟨404, .none⟩)
  | some route =>
      if !route.takes method then (c, ⟨405, .none⟩)
      else
        let (c, response) := serve c route query
        (c, if method = "HEAD" then response.head else response)

end Tripwire.Http
