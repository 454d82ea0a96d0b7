import MfaConsole.Wire.Reader

/-! The envelope around every answer of the backend: the outcome with its payload or its error, and versions. -/

namespace MfaConsole
namespace Wire

/-- Why the backend refused a request. -/
structure Refusal where
  code : Option Int64
  message : String
  deriving DecidableEq, Inhabited

/-- The outcome of a request. The status is false when the backend refused it, and then there may be an error. -/
structure Outcome (α : Type) where
  status : Bool
  value : Option α
  error : Option Refusal

/-- An answer of the backend. -/
structure Envelope (α : Type) where
  result : Outcome α
  version : Option String
  versionNumber : Option String
  detail : Option Json

namespace Refusal

def read : Reader Refusal := fun v => do
  let f ← Fields.of? 2 v
  let code ← f.optional 0 "code" int64
  let message ← f.withDefault 1 "message" "" text
  pure { code, message }

def write (r : Refusal) : Json :=
  .object [("code", ofNullable ofInt64 r.code), ("message", .string r.message)]

end Refusal

namespace Outcome
variable {α : Type}

/-- Reads an outcome with a payload that `payload` reads; a null payload is none, whatever its type. -/
def read (payload : Reader α) : Reader (Outcome α) := fun v => do
  let f ← Fields.of? 3 v
  let status ← f.withDefault 0 "status" false truth
  let value ← f.optional 1 "value" payload
  let error ← f.optional 2 "error" Refusal.read
  pure { status, value, error }

def write (payload : α → Json) (o : Outcome α) : Json :=
  .object [("error", ofNullable Refusal.write o.error), ("status", .bool o.status),
    ("value", ofNullable payload o.value)]

end Outcome

namespace Envelope
variable {α : Type}

/-- Reads an answer with a payload that `payload` reads. -/
def read (payload : Reader α) : Reader (Envelope α) := fun v => do
  let f ← Fields.of? 4 v
  let result ← f.required 0 "result" (Outcome.read payload)
  let version ← f.optional 1 "version" text
  let versionNumber ← f.optional 2 "versionnumber" text
  let detail ← f.optional 3 "detail" anything
  pure { result, version, versionNumber, detail }

def write (payload : α → Json) (e : Envelope α) : Json :=
  .object [("detail", ofNullable id e.detail), ("result", e.result.write payload),
    ("version", Json.ofOption e.version), ("versionnumber", Json.ofOption e.versionNumber)]

def succeeded (e : Envelope α) : Bool := e.result.status

def value (e : Envelope α) : Option α := e.result.value

/-- The message of the error, if there is one. -/
def errorMessage (e : Envelope α) : Option String := e.result.error.map (·.message)

/-- Whether the payload is the truth value true; a text, a number or no payload is not. -/
def isTrue (e : Envelope Json) : Bool :=
  match e.result.value with
  | some (.bool true) => true
  | _ => false

end Envelope
end Wire
end MfaConsole
