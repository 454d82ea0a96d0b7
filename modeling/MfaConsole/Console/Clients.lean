import MfaConsole.Console.Pending
import MfaConsole.Text.Blank

/-! The client applications that have talked to the backend. -/

namespace MfaConsole
namespace Console

def clientTypePath : String := "/component/clienttype"

variable (c : Console)

def listClients : Console × Ending :=
  (c.changeClients fun v => { v with loading := true }, .clientList)

/-- A view opens at a path; only the one of the client types lists. -/
def mountClients (path : String) : Console × Opening :=
  if Text.dropTrailing '/' path = clientTypePath then
    let (c, e) := c.listClients
    (c, .ending e)
  else (c, .settled)

def clientsListed (reply : Rest.Reply) : Console :=
  let (c, outcome) := c.receive .clientTypes reply
  c.changeClients (.endList outcome)

end Console
end MfaConsole
