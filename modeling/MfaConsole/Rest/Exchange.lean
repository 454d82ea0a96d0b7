import MfaConsole.Json.Parser
import MfaConsole.Rest.Failure
import MfaConsole.Text.Blank
import MfaConsole.Text.Form

/-! Requests to the backend and the answers to them. -/

namespace MfaConsole
namespace Rest

/-- The methods in use. -/
inductive Method where
  | get
  | post
  | delete
  deriving DecidableEq, Repr

def Method.name : Method → String
  | .get => "GET"
  | .post => "POST"
  | .delete => "DELETE"

/-- A request. The query stands beside the URL; only what is posted has a body. -/
structure Request where
  method : Method
  url : String
  query : List (String × String)
  body : Option Json
  authorization : Option String

namespace Request

def get (url : String) (query : List (String × String)) : Request :=
  { method := .get, url, query, body := none, authorization := none }

def post (url : String) (body : Json) : Request :=
  { method := .post, url, query := [], body := some body, authorization := none }

def delete (url : String) : Request :=
  { method := .delete, url, query := [], body := none, authorization := none }

def fullUrl (r : Request) : String := Text.Form.withQuery r.url r.query

end Request

/-- An answer. The reason is what its reader says of a body that does not have the expected shape; no more is known of
    that text. -/
structure Answer where
  status : Nat
  body : Json
  shapeReason : String

def isSuccess (status : Nat) : Bool := 200 ≤ status && status < 300

/-- What came of a request: an answer, or the failure to get one. -/
abbrev Reply := Except Failure Answer

/-- The value of an answer's text: null for blanks, and the text itself where it is no JSON. -/
def parseBody (s : String) : Json :=
  if Text.allBlank s then .null else (Json.parse? s).getD (.string s)

/-- What an operation makes of a reply: the envelope of an answer of success, or the failure. -/
def judge {α : Type} (payload : Wire.Reader α) : Reply → Except Failure (Wire.Envelope α)
  | .error f => .error f
  | .ok a =>
    if isSuccess a.status then readEnvelope payload a.body a.shapeReason
    else .error (Failure.ofAnswer a.status a.body)

end Rest
end MfaConsole
