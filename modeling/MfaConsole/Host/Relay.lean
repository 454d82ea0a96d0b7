import MfaConsole.Host.Message
import MfaConsole.Rest.Endpoints
import MfaConsole.Text.Blank

/-! The relay of requests to the backend. Only the backend's own resources are relayed, with two of the headers;
    of the backend's answer the status, the type and the content come back. -/

namespace MfaConsole
namespace Host

/-- The backend to relay to, and the mount path of its resources. -/
structure Relay where
  /-- The URL of the backend, without a slash at its end. -/
  base : String
  mount : String
  deriving DecidableEq, Repr

/-- A request to the backend. -/
structure Outgoing where
  method : String
  url : String
  headers : Headers
  body : ByteArray

/-- An answer of the backend. -/
structure Incoming where
  status : Nat
  headers : Headers
  body : ByteArray

/-- What sends requests to the backend: with the state of the network, the answer or why none came. -/
abbrev Carrier (ν : Type) := ν → Outgoing → ν × Except String Incoming

/-- Why a request is not relayed. -/
inductive Refusal where
  | notRelayed
  | tooLong
  deriving DecidableEq, Repr

/-- The most octets of a body that are relayed. -/
def mostOctets : Nat := 2 * 1024 * 1024

/-- The path of a resource below the mount path, if its first segment is one of the backend's. -/
def backendPath? (mount path : String) : Option String :=
  match Text.after? mount.toList path.toList with
  | some ('/' :: rest) =>
    if Rest.resourceRoots.contains (String.ofList (rest.takeWhile (· != '/'))) then some (String.ofList ('/' :: rest))
    else none
  | _ => none

/-- The headers that are relayed: the first of each of two names. -/
def relayedHeaders (hs : Headers) : Headers :=
  ["authorization", "content-type"].filterMap fun name => (hs.first? name).map fun value => (name, value)

/-- The answer to a request that is not relayed. -/
def Refusal.response : Refusal → Response
  | .notRelayed => .bare 404
  | .tooLong => .words 400 "request body: length limit exceeded"

def relayedResponse : Except String Incoming → Response
  | .error reason => .words 502 ("backend: " ++ reason)
  | .ok i => { Response.bare i.status with contentType := i.headers.first? "content-type", content := .octets i.body }

namespace Relay

def ofBase (base mount : String) : Relay := ⟨Text.dropTrailing '/' base, mount⟩

variable (r : Relay)

/-- The URL at the backend for a path and query; an empty query is none. -/
def target? (path : String) (query : Option String) : Option String :=
  (backendPath? r.mount path).map fun path =>
    match query.filter (· ≠ "") with
    | some query => r.base ++ path ++ "?" ++ query
    | none => r.base ++ path

/-- The request to the backend for a request, or why there is none. -/
def outgoing (q : Request) : Except Refusal Outgoing :=
  match r.target? q.path q.target.query with
  | none => .error .notRelayed
  | some url =>
    if mostOctets < q.body.size then .error .tooLong
    else .ok { method := q.method, url, headers := relayedHeaders q.headers, body := q.body }

/-- A request is relayed, or refused. -/
def respond {ν : Type} (carry : Carrier ν) (network : ν) (q : Request) : ν × Response :=
  match r.outgoing q with
  | .error refusal => (network, refusal.response)
  | .ok o =>
    let (network, outcome) := carry network o
    (network, relayedResponse outcome)

end Relay
end Host
end MfaConsole
