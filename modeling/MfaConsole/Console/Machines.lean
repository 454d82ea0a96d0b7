import MfaConsole.Console.Pending

/-! Machines and the tokens attached to them. The list shows the machines of one resolver or of all; the details
    show the tokens of one machine, which are listed again, once, after each change. -/

namespace MfaConsole
namespace Console

def attachedMessage : String := "Token attached to machine."

def detachedMessage : String := "Token detached from machine."

def optionsSavedMessage : String := "Token options saved."

variable (c : Console)

/-- The machines of a resolver are listed, or all machines. -/
def listMachines (resolver : Option String) : Console × Ending :=
  let resolver := resolver.filter (· ≠ "")
  (c.changeMachines (.beginList resolver), .machineList (.ofResolver resolver))

def listTokens (machine : String × String) : Console × Ending :=
  (c.changeMachines fun v => { v with loading := true }, .tokenList (.ofMachine machine.1 machine.2))

/-- The tokens of the chosen machine are listed, if one is chosen. -/
def refreshTokens : Console × Option Ending :=
  match c.machines.selected with
  | none => (c, none)
  | some machine =>
    let (c, e) := c.listTokens machine
    (c, some e)

def openDetails (machineId resolver : String) : Console × Opening :=
  let (c, e) := (c.changeMachines (.select machineId resolver)).listTokens (machineId, resolver)
  (c, .details e)

/-- What the machines' view shows is listed again: the tokens of the chosen machine, or else the machines. -/
def refreshMachines : Console × Ending :=
  match c.machines.selected with
  | some machine => c.listTokens machine
  | none => c.listMachines c.machines.resolver

/-- A token is attached, to the chosen machine where none is given. -/
def attachToken (a : Wire.Attachment) : Console × Opening :=
  (c, .writing (.attach (c.machines.selected.elim a fun m => a.fillMachine m.1 m.2)))

def detachToken (key : Wire.TokenKey) : Console × Opening := (c, .writing (.detach key))

/-- The options of a token are changed, on the chosen machine where none is given. -/
def saveTokenOptions (u : Wire.OptionUpdate) : Console × Opening :=
  (c, .writing (.saveOptions (c.machines.selected.elim u fun m => u.fillMachine m.1 m.2)))

def machinesListed (filter : Wire.MachineFilter) (reply : Rest.Reply) : Console :=
  let (c, outcome) := c.receive (.machines filter) reply
  c.changeMachines (.endList outcome)

def tokensListed (filter : Wire.TokenFilter) (reply : Rest.Reply) : Console :=
  let (c, outcome) := c.receive (.tokens filter) reply
  c.changeMachines (.endTokens outcome)

/-- The applications arrive: those to be offered, unless that failed. -/
def applicationsListed (reply : Rest.Reply) : Console × Option (KeyMap Json) :=
  match c.receive .applications reply with
  | (c, .error _) => (c, none)
  | (c, .ok e) => (c, some (e.value.getD KeyMap.empty))

/-- The applications are offered, if there are any to offer. -/
def offerApplications (applications : Option (KeyMap Json)) : Console :=
  applications.elim c fun applications => c.changeMachines fun v => { v with applications }

/-- The reply to a change of tokens arrives. It is confirmed, or the backend's refusal is shown, and the tokens of
    the chosen machine are listed again. -/
def tokensWritten (o : Rest.Operation) (message : String) (reply : Rest.Reply) : Console × Option Ending :=
  match c.receive o reply with
  | (c, .error _) => (c, none)
  | (c, .ok e) =>
    (if e.succeeded then c.inform message else e.errorMessage.elim c c.complain).refreshTokens

end Console
end MfaConsole
