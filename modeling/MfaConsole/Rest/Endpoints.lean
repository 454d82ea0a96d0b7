import MfaConsole.Text.Blank
import MfaConsole.Text.Percent
import MfaConsole.Wire.Token

/-! The paths of the backend's resources below a base. Identifiers and keys are written as segments of their own,
    so that each names exactly one resource. -/

namespace MfaConsole
namespace Rest

/-- The first segments of every resource of the backend. -/
def resourceRoots : List String := ["auth", "edumfaserver", "machine", "application", "client", "recover"]

/-- The resources below a base; the base does not end in a slash. -/
structure Endpoints where
  base : String
  deriving DecidableEq, Inhabited

namespace Endpoints

/-- The resources below a base, whose slashes at the end count for nothing. -/
def below (base : String) : Endpoints := ⟨Text.dropTrailing '/' base⟩

def auth (e : Endpoints) : String := e.base ++ "/auth"

def servers (e : Endpoints) : String := e.base ++ "/edumfaserver/"

def server (e : Endpoints) (identifier : String) : String :=
  e.base ++ "/edumfaserver/" ++ Text.Percent.segment identifier

def serverTest (e : Endpoints) : String := e.base ++ "/edumfaserver/test_request"

def machines (e : Endpoints) : String := e.base ++ "/machine/"

def machineTokens (e : Endpoints) : String := e.base ++ "/machine/token"

def machineToken (e : Endpoints) (k : Wire.TokenKey) : String :=
  e.base ++ "/machine/token/" ++ Text.Percent.segment k.serial ++ "/" ++ Text.Percent.segment k.application ++ "/" ++
    toString k.mtid.toInt

def machineTokenOptions (e : Endpoints) : String := e.base ++ "/machine/tokenoption"

def applications (e : Endpoints) : String := e.base ++ "/application/"

def clientTypes (e : Endpoints) : String := e.base ++ "/client/"

def recover (e : Endpoints) : String := e.base ++ "/recover"

def recoverReset (e : Endpoints) : String := e.base ++ "/recover/reset"

end Endpoints
end Rest
end MfaConsole
