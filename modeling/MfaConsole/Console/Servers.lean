import MfaConsole.Console.Pending
import MfaConsole.Text.Blank

/-! The definitions of remote servers: listed, created, changed, tried and deleted. The backend alone says what is
    stored: after each change the definitions are listed again, once. A save takes the administrator to the list,
    which then shows the listing made by the save. -/

namespace MfaConsole
namespace Console

def savedMessage : String := "eduMFA Server Config saved."

def testPassedMessage : String := "Request to remote eduMFA server successful."

/-- What is said of a trial that did not. -/
def testFailedMessage : String := "Request to remote eduMFA server failed."

def requiredMessage : String := "Identifier and URL are required."

variable (c : Console)

/-- The definitions are listed, and the one of an identifier is loaded into the form; a save may wait for it. -/
def listServers (load : Option String) (saved : Option (Wire.Envelope Json)) : Console × Ending :=
  (c.changeServers .beginList, .serverList load saved)

/-- The list view opens. It lists, unless a save has just done so. -/
def mountServerList : Console × Opening :=
  let fresh := c.servers.fresh
  let c := c.changeServers fun v => { v with fresh := false }
  if fresh then (c, .settled)
  else
    let (c, e) := c.listServers none none
    (c, .ending e)

/-- The form opens, for a new definition or for a stored one, which is then loaded. -/
def mountServerForm (identifier : Option String) : Console × Opening :=
  let c := c.changeServers (.openForm identifier)
  match identifier with
  | none => (c, .settled)
  | some identifier =>
    let (c, e) := c.listServers (some identifier) none
    (c, .ending e)

def setServerForm (form : Wire.ServerForm) : Console := c.changeServers fun v => { v with form }

def isComplete (form : Wire.ServerForm) : Bool :=
  !Text.allBlank form.identifier && !Text.allBlank form.url

def addServer (form : Wire.ServerForm) : Console × Opening :=
  if isComplete form then (c, .writing (.addServer form)) else (c.warn requiredMessage, .settled)

def saveServer : Console × Opening :=
  if isComplete c.servers.form then (c, .writing (.saveServer c.servers.form))
  else (c.warn requiredMessage, .settled)

/-- The remote server in the form is tried with the credentials of a user. -/
def testServer (username password : String) : Console × Opening :=
  (c, .ending (.serverTest (.ofForm c.servers.form username password)))

/-- A save is confirmed and the administrator is taken to the list; or the backend's refusal is shown. -/
def confirmSave (saved : Wire.Envelope Json) : Console :=
  if saved.succeeded then
    ((c.changeServers fun v => { v with fresh := true }).inform savedMessage).goState Navigation.serverListState []
  else saved.errorMessage.elim c c.complain

def serversListed (load : Option String) (saved : Option (Wire.Envelope Json)) (reply : Rest.Reply) : Console :=
  let (c, outcome) := c.receive .servers reply
  let c := c.changeServers (.endList load outcome)
  saved.elim c c.confirmSave

/-- The reply to a new definition arrives; one that was answered is followed by a listing. -/
def serverAdded (form : Wire.ServerForm) (reply : Rest.Reply) : Console × Option Ending :=
  match c.receive (.setServer form) reply with
  | (c, .error _) => (c, none)
  | (c, .ok _) => (c.listServers none none).map id some

/-- The reply to a save arrives; one that was answered is followed by a listing, and confirmed after it. -/
def serverSaved (form : Wire.ServerForm) (reply : Rest.Reply) : Console × Option Ending :=
  match c.receive (.setServer form) reply with
  | (c, .error _) => (c, none)
  | (c, .ok e) => (c.listServers none (some e)).map id some

/-- The reply to a deletion arrives; one that was answered is followed by a listing. -/
def serverDeleted (identifier : String) (reply : Rest.Reply) : Console × Option Ending :=
  match c.receive (.deleteServer identifier) reply with
  | (c, .error _) => (c, none)
  | (c, .ok _) => (c.listServers none none).map id some

def serverTested (test : Wire.ConnectionTest) (reply : Rest.Reply) : Console :=
  match c.receive (.testServer test) reply with
  | (c, .error _) => c
  | (c, .ok e) => if Wire.Envelope.isTrue e then c.inform testPassedMessage else c.warn testFailedMessage

end Console
end MfaConsole
