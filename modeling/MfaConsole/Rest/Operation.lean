import MfaConsole.Rest.Endpoints
import MfaConsole.Rest.Exchange
import MfaConsole.Wire.Client
import MfaConsole.Wire.Recovery
import MfaConsole.Wire.Server
import MfaConsole.Wire.Token

/-! The operations of the backend that the console uses: what each sends, and what its answers hold. -/

namespace MfaConsole
namespace Rest

/-- An operation of the backend with its arguments. -/
inductive Operation where
  | servers
  | setServer (form : Wire.ServerForm)
  | deleteServer (identifier : String)
  | testServer (test : Wire.ConnectionTest)
  | machines (filter : Wire.MachineFilter)
  | tokens (filter : Wire.TokenFilter)
  | attach (attachment : Wire.Attachment)
  | detach (key : Wire.TokenKey)
  | saveOptions (options : Wire.OptionUpdate)
  | applications
  | clientTypes
  | requestCode (request : Wire.CodeRequest)
  | resetPassword (reset : Wire.PasswordReset)

namespace Operation

/-- What an operation sends, without an authorization. -/
def request (e : Endpoints) : Operation → Request
  | .servers => .get e.servers []
  | .setServer form => .post (e.server form.identifier) form.body
  | .deleteServer identifier => .delete (e.server identifier)
  | .testServer test => .post e.serverTest test.write
  | .machines filter => .get e.machines filter.query
  | .tokens filter => .get e.machineTokens filter.query
  | .attach attachment => .post e.machineTokens attachment.write
  | .detach key => .delete (e.machineToken key)
  | .saveOptions options => .post e.machineTokenOptions options.write
  | .applications => .get e.applications []
  | .clientTypes => .get e.clientTypes []
  | .requestCode request => .post e.recover request.write
  | .resetPassword reset => .post e.recoverReset reset.write

def Payload : Operation → Type
  | .servers => KeyMap Wire.ServerDefinition
  | .machines _ => List Wire.Machine
  | .tokens _ => Wire.TokenPage
  | .applications => KeyMap Json
  | .clientTypes => Wire.ClientTypes
  | .setServer _ | .deleteServer _ | .testServer _ | .attach _ | .detach _ | .saveOptions _ | .requestCode _
  | .resetPassword _ => Json

def payload : (o : Operation) → Wire.Reader o.Payload
  | .servers => Wire.mapOf Wire.ServerDefinition.read
  | .machines _ => Wire.listOf Wire.Machine.read
  | .tokens _ => Wire.TokenPage.read
  | .applications => Wire.mapOf Wire.anything
  | .clientTypes => Wire.ClientTypes.read
  | .setServer _ | .deleteServer _ | .testServer _ | .attach _ | .detach _ | .saveOptions _ | .requestCode _
  | .resetPassword _ => Wire.anything

def outcome (o : Operation) (reply : Reply) : Except Failure (Wire.Envelope o.Payload) :=
  judge o.payload reply

end Operation
end Rest
end MfaConsole
