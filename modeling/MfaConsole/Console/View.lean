import MfaConsole.Rest.Operation

/-! What the views of the console show: the state each controller keeps, and the changes made to it. -/

namespace MfaConsole
namespace Console

/-- What came of an operation whose answers hold an `α`. -/
abbrev Outcome (α : Type) := Except Rest.Failure (Wire.Envelope α)

/-- The definitions of remote servers and the form in which one is edited. -/
structure ServersView where
  /-- The definitions of the last listing. -/
  servers : KeyMap Wire.ServerDefinition
  form : Wire.ServerForm
  /-- The identifier of the definition in the form; none for a new one. -/
  editing : Option String
  loading : Bool
  /-- The listing was made by a save, and the next list view shows it as it is. -/
  fresh : Bool

/-- The machines listed, and the one whose tokens are shown. -/
structure MachinesView where
  resolver : Option String
  machines : List Wire.Machine
  selected : Option (String × String)
  tokens : List Wire.AttachedToken
  applications : KeyMap Json
  loading : Bool

/-- The client applications listed. -/
structure ClientsView where
  clientTypes : Wire.ClientTypes
  loading : Bool

/-- How far the recovery of a password has come. -/
inductive RecoveryPhase where
  | idle
  | submitting
  | codeSent
  | passwordReset
  deriving DecidableEq, Repr

/-- The recovery of a password. -/
structure RecoveryView where
  phase : RecoveryPhase
  error : Option String
  deriving DecidableEq, Repr

/-- Whether the administrator is logged in, and the status of the last rejection. -/
structure Session where
  loggedIn : Bool
  expiredStatus : Option Nat
  deriving DecidableEq, Repr

namespace ServersView

/-- Nothing listed yet, and the form of a new definition. -/
def initial : ServersView :=
  { servers := KeyMap.empty, form := .blank, editing := none, loading := false, fresh := false }

def beginList (v : ServersView) : ServersView := { v with loading := true, fresh := false }

/-- The form shows the definition listed under an identifier, if there is one. -/
def loadForm (identifier : String) (v : ServersView) : ServersView :=
  match v.servers.get? identifier with
  | some d => { v with form := .ofDefinition identifier d, editing := some identifier }
  | none => v

/-- A listing ends; one that failed leaves what is shown. -/
def endList (load : Option String) (outcome : Outcome (KeyMap Wire.ServerDefinition)) (v : ServersView) :
    ServersView :=
  match outcome with
  | .error _ => { v with loading := false }
  | .ok e =>
    let v := { v with loading := false, servers := e.value.getD KeyMap.empty }
    load.elim v fun identifier => v.loadForm identifier

/-- The form of a new definition, or of one still to be loaded, is opened. -/
def openForm (identifier : Option String) (v : ServersView) : ServersView :=
  { v with form := .blank, editing := identifier, fresh := false }

def identifiers (v : ServersView) : List String := v.servers.keys

end ServersView

namespace MachinesView

def initial : MachinesView :=
  { resolver := none, machines := [], selected := none, tokens := [], applications := KeyMap.empty,
    loading := false }

/-- A listing of the machines of a resolver begins, or of all machines. -/
def beginList (resolver : Option String) (v : MachinesView) : MachinesView :=
  { v with resolver, selected := none, loading := true }

/-- A listing of machines ends; one that failed leaves what is shown. -/
def endList (outcome : Outcome (List Wire.Machine)) (v : MachinesView) : MachinesView :=
  match outcome with
  | .error _ => { v with loading := false }
  | .ok e => { v with loading := false, machines := e.value.getD [] }

/-- A machine is chosen, and no tokens are shown yet. -/
def select (machineId resolver : String) (v : MachinesView) : MachinesView :=
  { v with selected := some (machineId, resolver), tokens := [] }

/-- A listing of tokens ends; one that failed leaves what is shown. -/
def endTokens (outcome : Outcome Wire.TokenPage) (v : MachinesView) : MachinesView :=
  match outcome with
  | .error _ => { v with loading := false }
  | .ok e => { v with loading := false, tokens := e.value.elim [] Wire.TokenPage.tokens }

def applicationNames (v : MachinesView) : List String := v.applications.keys

end MachinesView

namespace ClientsView

def initial : ClientsView := { clientTypes := KeyMap.empty, loading := false }

/-- A listing ends; one that failed leaves what is shown. -/
def endList (outcome : Outcome Wire.ClientTypes) (v : ClientsView) : ClientsView :=
  match outcome with
  | .error _ => { v with loading := false }
  | .ok e => { v with loading := false, clientTypes := e.value.getD KeyMap.empty }

end ClientsView

def RecoveryView.initial : RecoveryView := { phase := .idle, error := none }

/-- Logged in, and never rejected. -/
def Session.initial : Session := { loggedIn := true, expiredStatus := none }

end Console
end MfaConsole
