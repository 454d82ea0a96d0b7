import MfaConsole.Console.Basic

/-! Operations of the console that wait for a reply. A controller's call changes the console and then asks the
    backend for something; what is to be done with the reply is kept as data until it arrives. -/

namespace MfaConsole
namespace Console

/-- A reply that ends the call it belongs to. -/
inductive Ending where
  /-- A listing of servers; a definition is to be loaded into the form, and a save may wait for the listing. -/
  | serverList (load : Option String) (saved : Option (Wire.Envelope Json))
  | serverTest (test : Wire.ConnectionTest)
  | machineList (filter : Wire.MachineFilter)
  | tokenList (filter : Wire.TokenFilter)
  | clientList
  | recoveryCode (request : Wire.CodeRequest)
  | passwordReset (reset : Wire.PasswordReset)

/-- A reply to a change of stored data, after which the changed data may be listed again. -/
inductive Writing where
  | addServer (form : Wire.ServerForm)
  | saveServer (form : Wire.ServerForm)
  | deleteServer (identifier : String)
  | attach (attachment : Wire.Attachment)
  | detach (key : Wire.TokenKey)
  | saveOptions (options : Wire.OptionUpdate)

def Ending.operation : Ending → Rest.Operation
  | .serverList _ _ => .servers
  | .serverTest test => .testServer test
  | .machineList filter => .machines filter
  | .tokenList filter => .tokens filter
  | .clientList => .clientTypes
  | .recoveryCode request => .requestCode request
  | .passwordReset reset => .resetPassword reset

def Writing.operation : Writing → Rest.Operation
  | .addServer form | .saveServer form => .setServer form
  | .deleteServer identifier => .deleteServer identifier
  | .attach attachment => .attach attachment
  | .detach key => .detach key
  | .saveOptions options => .saveOptions options

/-- How a call goes on after its first changes. -/
inductive Opening where
  | settled
  | ending (e : Ending)
  /-- It writes, and may then list. -/
  | writing (w : Writing)
  /-- It asks for the tokens of a machine and, besides, for the applications. -/
  | details (tokens : Ending)

end Console
end MfaConsole
