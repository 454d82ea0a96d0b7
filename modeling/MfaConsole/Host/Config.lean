import MfaConsole.Bootstrap
import MfaConsole.Number.Digits
import MfaConsole.Text.Pieces

/-! The configuration of the host, taken from named variables. Only the address of the backend has to be given. -/

namespace MfaConsole
namespace Host

/-- Why there is no configuration. -/
inductive ConfigError where
  | missing (name : String)
  | invalid (name value : String)
  deriving DecidableEq, Repr

def ConfigError.message : ConfigError → String
  | .missing name => name ++ " is required"
  | .invalid name value => "invalid " ++ name ++ ": " ++ value

/-- The configuration of the host. -/
structure Config where
  socket : UInt16
  /-- The URL of the backend, without a slash at its end. -/
  backend : String
  release : String
  staticDirectory : String
  /-- The path below which the files and the backend's resources are mounted. -/
  mount : String
  deriving DecidableEq, Repr

namespace Config

def socketVariable : String := "PORT"

def backendVariable : String := "EDUMFA_BACKEND_URL"

def releaseVariable : String := "EDUMFA_VERSION"

def staticVariable : String := "STATIC_DIR"

def mountVariable : String := "INSTANCE_URL"

/-- The socket where none is given. -/
def defaultSocket : UInt16 := 3000

/-- The release where none is given. -/
def defaultRelease : String := "0.1.0"

/-- The directory of static files where none is given. -/
def defaultStaticDirectory : String := "static"

/-- The socket a text stands for: ASCII digits, perhaps with a plus sign before them and blanks around them. -/
def socketOf? (raw : String) : Option UInt16 :=
  let digits := match Text.trimChars raw.toList with
    | '+' :: ds => ds
    | ds => ds
  let n := Number.digitsValue digits
  if digits ≠ [] ∧ digits.all Char.isDigit ∧ n < UInt16.size then some (UInt16.ofNat n) else none

/-- The socket given, or the default. -/
def readSocket (raw : Option String) : Except ConfigError UInt16 :=
  match raw with
  | none => .ok defaultSocket
  | some raw =>
    match socketOf? raw with
    | some n => .ok n
    | none => .error (.invalid socketVariable raw)

def isWebUrl (url : String) : Bool :=
  (Text.after? "http://".toList url.toList).isSome || (Text.after? "https://".toList url.toList).isSome

/-- The URL of the backend, without blanks around it and slashes at its end. -/
def readBackend (raw : Option String) : Except ConfigError String :=
  let url := Text.dropTrailing '/' (Text.trim (raw.getD ""))
  if url = "" then .error (.missing backendVariable)
  else if isWebUrl url then .ok url
  else .error (.invalid backendVariable url)

def ofVariables (value? : String → Option String) : Except ConfigError Config := do
  let socket ← readSocket (value? socketVariable)
  let backend ← readBackend (value? backendVariable)
  pure { socket, backend, release := (value? releaseVariable).getD defaultRelease,
         staticDirectory := (value? staticVariable).getD defaultStaticDirectory,
         mount := normalizeInstance ((value? mountVariable).getD "") }

/-- What the host hands to the console; the language is that of each request. -/
def bootstrap (c : Config) : Bootstrap := { release := Text.trim c.release, mount := c.mount, language := "" }

end Config
end Host
end MfaConsole
