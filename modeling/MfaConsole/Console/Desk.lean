import MfaConsole.Console.Call

/-! The console with its calls in progress. The backend either answers a request at once or lets it wait; a call
    goes on as far as it can, and what waits is kept as a task with the number of its request. -/

namespace MfaConsole
namespace Console

/-- A request under way: its number, and what its reply is for. -/
structure Waiting (π : Type) where
  ticket : Nat
  purpose : π

/-- What has come of the request for applications: nothing yet, or the applications, or none as it failed. -/
inductive Applications where
  | waiting (ticket : Nat)
  | arrived (applications : Option (KeyMap Json))

/-- A call in progress. -/
inductive Task where
  | over
  | ending (w : Waiting Ending)
  | writing (w : Waiting Writing)
  /-- The tokens and the applications are asked for at the same time; the applications are offered once both have
      arrived. -/
  | details (tokens : Option (Waiting Ending)) (applications : Applications)
  /-- A view is refreshed once for each reload in its mailbox, one refresh after the other. -/
  | watching (view : Watched) (mailbox : Nat) (refresh : Option (Waiting Ending))

/-- The backend as the console meets it: given the number of a request and the request, it answers at once or not
    yet. -/
abbrev Backend (β : Type) := β → Nat → Rest.Request → β × Option Rest.Reply

/-- The console at work: its tasks in the order of their beginning, the backend, and the number of requests. -/
structure Desk (β : Type) where
  console : Console
  backend : β
  sent : Nat
  tasks : List Task

def Task.tickets : Task → List Nat
  | .over => []
  | .ending w => [w.ticket]
  | .writing w => [w.ticket]
  | .details tokens applications =>
    tokens.toList.map (·.ticket) ++ match applications with
      | .waiting ticket => [ticket]
      | .arrived _ => []
  | .watching _ _ refresh => refresh.toList.map (·.ticket)

namespace Desk
variable {β : Type} (answer : Backend β)

def ofConsole (console : Console) (backend : β) : Desk β := { console, backend, sent := 0, tasks := [] }

def change (d : Desk β) (f : Console → Console) : Desk β := { d with console := f d.console }

/-- A request is sent: the number it has, and the reply if it comes at once. -/
def send (d : Desk β) (o : Rest.Operation) : Desk β × Nat × Option Rest.Reply :=
  let (console, r) := d.console.dispatch o
  let (backend, reply) := answer d.backend d.sent r
  ({ d with console, backend, sent := d.sent + 1 }, d.sent, reply)

def ask (d : Desk β) (e : Ending) : Desk β × Option (Waiting Ending) :=
  match d.send answer e.operation with
  | (d, _, some reply) => (d.change (·.conclude e reply), none)
  | (d, ticket, none) => (d, some ⟨ticket, e⟩)

def askTask (d : Desk β) (e : Ending) : Desk β × Task :=
  match d.ask answer e with
  | (d, some w) => (d, .ending w)
  | (d, none) => (d, .over)

def afterWriting (d : Desk β) (w : Writing) (reply : Rest.Reply) : Desk β × Task :=
  let (console, next) := d.console.proceed w reply
  let d := { d with console }
  match next with
  | some e => d.askTask answer e
  | none => (d, .over)

def write (d : Desk β) (w : Writing) : Desk β × Task :=
  match d.send answer w.operation with
  | (d, _, some reply) => d.afterWriting answer w reply
  | (d, ticket, none) => (d, .writing ⟨ticket, w⟩)

def takeApplications (d : Desk β) (reply : Rest.Reply) : Desk β × Applications :=
  let (console, applications) := d.console.applicationsListed reply
  ({ d with console }, .arrived applications)

def askApplications (d : Desk β) : Desk β × Applications :=
  match d.send answer .applications with
  | (d, _, some reply) => d.takeApplications reply
  | (d, ticket, none) => (d, .waiting ticket)

/-- The applications are offered once they and the tokens have arrived. -/
def joinDetails (d : Desk β) (tokens : Option (Waiting Ending)) (applications : Applications) : Desk β × Task :=
  match tokens, applications with
  | none, .arrived applications => (d.change (·.offerApplications applications), .over)
  | tokens, applications => (d, .details tokens applications)

/-- The tokens of a machine and the applications are asked for, the tokens first. -/
def askDetails (d : Desk β) (tokens : Ending) : Desk β × Task :=
  let (d, tokens) := d.ask answer tokens
  let (d, applications) := d.askApplications answer
  d.joinDetails tokens applications

/-- A call goes on after its first changes. -/
def follow (d : Desk β) : Opening → Desk β × Task
  | .settled => (d, .over)
  | .ending e => d.askTask answer e
  | .writing w => d.write answer w
  | .details tokens => d.askDetails answer tokens

/-- A call is made, and goes on as far as it can. -/
def call (d : Desk β) (call : Call) : Desk β :=
  let (console, opening) := d.console.begin call
  let (d, task) := { d with console }.follow answer opening
  { d with tasks := d.tasks ++ [task] }

/-- A view is refreshed for at most `limit` of the reloads in its mailbox, until a refresh has to wait. -/
def refreshAll (view : Watched) (mailbox : Nat) : (limit : Nat) → Desk β → Desk β × Option (Waiting Ending)
  | 0, d => (d, none)
  | limit + 1, d =>
    match d.console.bus.take mailbox with
    | (_, none) => (d, none)
    | (bus, some _) =>
      let (console, e) := { d.console with bus }.refresh view
      match { d with console }.ask answer e with
      | (d, some w) => (d, some w)
      | (d, none) => refreshAll view mailbox limit d

def mailed (d : Desk β) (mailbox : Nat) : Nat := (d.console.bus.live? mailbox).elim 0 (·.queue.length)

/-- A view is refreshed for the reloads in its mailbox, until a refresh has to wait. -/
def watch (d : Desk β) (view : Watched) (mailbox : Nat) : Desk β × Task :=
  let (d, w) := refreshAll answer view mailbox (d.mailed mailbox) d
  (d, .watching view mailbox w)

/-- A request whose reply ends its call goes on with the replies that have arrived. -/
def resumeEnding (d : Desk β) (arrived : List (Nat × Rest.Reply)) :
    Option (Waiting Ending) → Desk β × Option (Waiting Ending)
  | none => (d, none)
  | some w =>
    match arrived.lookup w.ticket with
    | some reply => (d.change (·.conclude w.purpose reply), none)
    | none => (d, some w)

/-- The request for applications goes on with the replies that have arrived. -/
def resumeApplications (d : Desk β) (arrived : List (Nat × Rest.Reply)) : Applications → Desk β × Applications
  | .arrived applications => (d, .arrived applications)
  | .waiting ticket =>
    match arrived.lookup ticket with
    | some reply => d.takeApplications reply
    | none => (d, .waiting ticket)

def resume (arrived : List (Nat × Rest.Reply)) (d : Desk β) : Task → Desk β × Task
  | .over => (d, .over)
  | .ending w =>
    match d.resumeEnding arrived (some w) with
    | (d, some w) => (d, .ending w)
    | (d, none) => (d, .over)
  | .writing w =>
    match arrived.lookup w.ticket with
    | some reply => d.afterWriting answer w.purpose reply
    | none => (d, .writing w)
  | .details tokens applications =>
    let (d, tokens) := d.resumeEnding arrived tokens
    let (d, applications) := d.resumeApplications arrived applications
    d.joinDetails tokens applications
  | .watching view mailbox refresh =>
    match d.resumeEnding arrived refresh with
    | (d, some w) => (d, .watching view mailbox (some w))
    | (d, none) => d.watch answer view mailbox

/-- The task of a number goes on with the replies that have arrived. -/
def resumeAt (arrived : List (Nat × Rest.Reply)) (d : Desk β) (i : Nat) : Desk β :=
  match d.tasks[i]? with
  | none => d
  | some task =>
    let (d, task) := d.resume answer arrived task
    { d with tasks := d.tasks.set i task }

/-- The task that waits for a request, if one does. -/
def waitsFor? (d : Desk β) (ticket : Nat) : Option Nat :=
  d.tasks.findIdx? fun t => t.tickets.contains ticket

/-- Replies arrive in the order given, and then the tasks that wait for them go on, in that order. -/
def deliver (d : Desk β) (arrived : List (Nat × Rest.Reply)) : Desk β :=
  let woken := (arrived.filterMap fun a => d.waitsFor? a.1).eraseDups
  woken.foldl (resumeAt answer arrived) d

/-- A view is watched from now on. The number is that of the task. -/
def bind (d : Desk β) (view : Watched) : Desk β × Nat :=
  let (bus, mailbox) := d.console.bus.subscribe .reload
  ({ d with console := { d.console with bus }, tasks := d.tasks ++ [.watching view mailbox none] }, d.tasks.length)

/-- A task is given up, and a mailbox it has goes with it. -/
def abandon (d : Desk β) (i : Nat) : Desk β :=
  match d.tasks[i]? with
  | some (.watching _ mailbox _) =>
    { d with console := { d.console with bus := d.console.bus.unsubscribe mailbox }, tasks := d.tasks.set i .over }
  | some _ => { d with tasks := d.tasks.set i .over }
  | none => d

/-- Reloads are published, and only then the watched views are refreshed. The numbers are those of the subscribers
    reached. -/
def reload (d : Desk β) (times : Nat) : Desk β × List Nat :=
  let (console, reached) := (List.range times).foldl (fun (c, reached) _ =>
    let (c, n) := Console.publish c .reload
    (c, reached ++ [n])) (d.console, [])
  let d := { d with console }
  ((List.range d.tasks.length).foldl (resumeAt answer []) d, reached)

end Desk
end Console
end MfaConsole
