import MfaConsole.Host.Target
import MfaConsole.Markup.Tree
import MfaConsole.Text.Pieces

/-! Requests that reach the host and the host's answers to them. The values of headers are octets, of which only
    some are text. -/

namespace MfaConsole
namespace Host

/-- The headers of a message in their order, as names and values. -/
abbrev Headers := List (String × List UInt8)

namespace Headers

/-- Whether two names of headers are the same; the case of letters does not matter. -/
def sameName (a b : String) : Bool := a.map Char.toLower == b.map Char.toLower

/-- The value of the first header of a name. -/
def first? (hs : Headers) (name : String) : Option (List UInt8) :=
  (hs.find? fun h => sameName h.1 name).map (·.2)

/-- The text of a value: visible ASCII characters, blanks and tabs; any other octet makes it unreadable. -/
def text? (value : List UInt8) : Option (List Char) :=
  if value.all fun b => b = 0x09 || (0x20 ≤ b && b ≤ 0x7E) then some (value.map fun b => Char.ofNat b.toNat)
  else none

end Headers

/-- A request. -/
structure Request where
  method : String
  target : Target
  headers : Headers
  body : ByteArray

def Request.path (q : Request) : String := q.target.path

/-- What an answer holds. -/
inductive Content where
  | octets (bytes : ByteArray)
  | document (m : Markup)

/-- An answer. -/
structure Response where
  status : Nat
  contentType : Option (List UInt8)
  /-- The methods allowed, in an answer to one that is not. -/
  allow : Option String
  location : Option String
  content : Content

namespace Response

def noContent : Content := .octets ByteArray.empty

/-- An answer without content. -/
def bare (status : Nat) : Response :=
  { status, contentType := none, allow := none, location := none, content := noContent }

def plainText : String := "text/plain; charset=utf-8"

def words (status : Nat) (text : String) : Response :=
  { bare status with contentType := some plainText.toUTF8.toList, content := .octets text.toUTF8 }

/-- What is only read. -/
def isReading (method : String) : Bool := method = "GET" || method = "HEAD"

/-- The answer to a method that is not allowed. -/
def notAllowed : Response := { bare 405 with allow := some "GET,HEAD" }

/-- An answer as it is sent: there is no content where only the head is asked for, or where the status says that
    there is none. -/
def sent (r : Response) (method : String) : Response :=
  if method = "HEAD" || r.status = 204 || r.status = 304 then { r with content := noContent } else r

end Response
end Host
end MfaConsole
