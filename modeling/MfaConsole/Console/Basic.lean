import MfaConsole.Bus
import MfaConsole.Console.View
import MfaConsole.Navigation.Links
import MfaConsole.Notices

/-! The console as a whole: its views, notices, session and bus, and the record of what happens in it. All changes
    go through the functions here, each of which records what it does. -/

namespace MfaConsole

namespace Console

/-- What stays the same while the console runs. -/
structure Setup where
  endpoints : Rest.Endpoints
  registry : Navigation.Registry
  catalog : Locale.Catalog

/-- What happens in the console, as an observer sees it. A change of state is recorded with the state after it, a
    change that leaves the state as it was included. -/
inductive Happening where
  | request (r : Rest.Request)
  | failure (f : Rest.Failure)
  | went (url : String)
  | servers (v : ServersView)
  | machines (v : MachinesView)
  | clients (v : ClientsView)
  | recovery (v : RecoveryView)
  | notices (n : Notices)
  | session (s : Session)

end Console

/-- The console. -/
structure Console where
  setup : Console.Setup
  /-- The token that the browser keeps for the session; requests go out with it. That the browser forgets it when a
      request is rejected is left out. -/
  authorization : Option String
  servers : Console.ServersView
  machines : Console.MachinesView
  clients : Console.ClientsView
  recovery : Console.RecoveryView
  notices : Notices
  session : Console.Session
  bus : Bus
  /-- The URL last gone to. -/
  target : Option String
  /-- What has happened, in order. -/
  record : List Console.Happening

namespace Console

def expiredMessage : String := "Your session has expired."

def start (setup : Setup) (authorization : Option String) : Console :=
  { setup, authorization, servers := .initial, machines := .initial, clients := .initial, recovery := .initial,
    notices := .empty, session := .initial, bus := .empty, target := none, record := [] }

/-- The console whose page is mounted at `mount`, for a release and a language. -/
def mounted (mount : String) (release : Release) (language : String) (authorization : Option String) : Console :=
  start { endpoints := .below mount, registry := .console mount release, catalog := .own language } authorization

variable (c : Console)

def happen (h : Happening) : Console := { c with record := c.record ++ [h] }

def changeServers (f : ServersView → ServersView) : Console :=
  { c with servers := f c.servers }.happen (.servers (f c.servers))

def changeMachines (f : MachinesView → MachinesView) : Console :=
  { c with machines := f c.machines }.happen (.machines (f c.machines))

def changeClients (f : ClientsView → ClientsView) : Console :=
  { c with clients := f c.clients }.happen (.clients (f c.clients))

def changeRecovery (f : RecoveryView → RecoveryView) : Console :=
  { c with recovery := f c.recovery }.happen (.recovery (f c.recovery))

def changeNotices (f : Notices → Notices) : Console :=
  { c with notices := f c.notices }.happen (.notices (f c.notices))

def changeSession (s : Session) : Console := { c with session := s }.happen (.session s)

def translate (message : String) : String := c.setup.catalog.translate message

/-- A notice of success, translated. -/
def inform (message : String) : Console := c.changeNotices (.add .info (c.translate message))

/-- A notice of an error, as it stands. -/
def complain (message : String) : Console := c.changeNotices (.add .error message)

/-- A notice of an error, translated. -/
def warn (message : String) : Console := c.complain (c.translate message)

def dismiss (id : Nat) : Console := c.changeNotices (.dismiss id)

def go (url : String) : Console := { c with target := some url }.happen (.went url)

/-- The administrator is taken to a state; one that has no URL changes nothing. -/
def goState (name : String) (params : List (String × String)) : Console :=
  match c.setup.registry.href name params with
  | .ok url => c.go url
  | .error _ => c

def publish (e : Event) : Console × Nat :=
  let (bus, reached) := c.bus.publish e
  ({ c with bus }, reached)

/-- A failed exchange is shown. A rejection also ends the session, and whoever listens is told. The token is in the
    browser's keeping: that a rejection has it forgotten there is left out, and the authorization stays as it is. -/
def handleFailure (f : Rest.Failure) : Console :=
  match f.code? with
  | some status =>
    if f.isRejection then
      ((c.changeSession { loggedIn := false, expiredStatus := some status }).warn expiredMessage).publish
        (.sessionExpired status) |>.1
    else c.complain f.message
  | none => c.complain f.message

def fail (f : Rest.Failure) : Console := (c.happen (.failure f)).handleFailure f

/-- The request of an operation leaves the console, with the authorization of this moment. -/
def dispatch (o : Rest.Operation) : Console × Rest.Request :=
  let r := { o.request c.setup.endpoints with authorization := c.authorization }
  (c.happen (.request r), r)

/-- The reply to an operation arrives. Its failure is handed to the session, and to nobody else. -/
def receive (o : Rest.Operation) (reply : Rest.Reply) : Console × Outcome o.Payload :=
  match o.outcome reply with
  | .ok e => (c, .ok e)
  | .error f => (c.fail f, .error f)

end Console
end MfaConsole
