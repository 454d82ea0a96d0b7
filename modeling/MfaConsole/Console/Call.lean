import MfaConsole.Console.Clients
import MfaConsole.Console.Machines
import MfaConsole.Console.Recovery
import MfaConsole.Console.Servers

/-! The calls that views make of the console, each as what it does at once and what it does with its replies. -/

namespace MfaConsole
namespace Console

/-- A call of a controller. -/
inductive Call where
  | mountServerList
  | mountServerForm (identifier : Option String)
  | listServers (load : Option String)
  | setServerForm (form : Wire.ServerForm)
  | addServer (form : Wire.ServerForm)
  | saveServer
  | deleteServer (identifier : String)
  | testServer (username password : String)
  | refreshServers
  | listMachines (resolver : Option String)
  | showDetails (machineId resolver : String)
  | refreshTokens
  | attachToken (attachment : Wire.Attachment)
  | detachToken (key : Wire.TokenKey)
  | saveTokenOptions (options : Wire.OptionUpdate)
  | refreshMachines
  | mountClients (path : String)
  | listClients
  | requestCode (request : Wire.CodeRequest)
  | resetPassword (reset : Wire.PasswordReset) (confirmation : String)

def opens (p : Console × Ending) : Console × Opening := (p.1, .ending p.2)

def begin (c : Console) : Call → Console × Opening
  | .mountServerList => c.mountServerList
  | .mountServerForm identifier => c.mountServerForm identifier
  | .listServers load => opens (c.listServers load none)
  | .setServerForm form => (c.setServerForm form, .settled)
  | .addServer form => c.addServer form
  | .saveServer => c.saveServer
  | .deleteServer identifier => (c, .writing (.deleteServer identifier))
  | .testServer username password => c.testServer username password
  | .refreshServers => opens (c.listServers none none)
  | .listMachines resolver => opens (c.listMachines resolver)
  | .showDetails machineId resolver => c.openDetails machineId resolver
  | .refreshTokens =>
    match c.refreshTokens with
    | (c, some e) => (c, .ending e)
    | (c, none) => (c, .settled)
  | .attachToken attachment => c.attachToken attachment
  | .detachToken key => c.detachToken key
  | .saveTokenOptions options => c.saveTokenOptions options
  | .refreshMachines => opens c.refreshMachines
  | .mountClients path => c.mountClients path
  | .listClients => opens c.listClients
  | .requestCode request => c.requestCode request
  | .resetPassword reset confirmation => c.resetPassword reset confirmation

def conclude (c : Console) : Ending → Rest.Reply → Console
  | .serverList load saved, reply => c.serversListed load saved reply
  | .serverTest test, reply => c.serverTested test reply
  | .machineList filter, reply => c.machinesListed filter reply
  | .tokenList filter, reply => c.tokensListed filter reply
  | .clientList, reply => c.clientsListed reply
  | .recoveryCode request, reply => c.codeRequested request reply
  | .passwordReset reset, reply => c.passwordSet reset reply

/-- What the reply to a change does, and the listing that follows it. -/
def proceed (c : Console) : Writing → Rest.Reply → Console × Option Ending
  | .addServer form, reply => c.serverAdded form reply
  | .saveServer form, reply => c.serverSaved form reply
  | .deleteServer identifier, reply => c.serverDeleted identifier reply
  | .attach attachment, reply => c.tokensWritten (.attach attachment) attachedMessage reply
  | .detach key, reply => c.tokensWritten (.detach key) detachedMessage reply
  | .saveOptions options, reply => c.tokensWritten (.saveOptions options) optionsSavedMessage reply

/-- A view that is refreshed whenever a reload is published. -/
inductive Watched where
  | servers
  | machines
  | clients
  deriving DecidableEq, Repr

def refresh (c : Console) : Watched → Console × Ending
  | .servers => c.listServers none none
  | .machines => c.refreshMachines
  | .clients => c.listClients

end Console
end MfaConsole
