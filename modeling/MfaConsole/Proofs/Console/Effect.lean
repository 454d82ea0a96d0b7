import MfaConsole.Console.Call

/-! What calls and replies do to the views of the console. Each changes the view it belongs to, if any; notices, the
    session, the bus and the record change along the way, and none of that touches a view. -/

namespace MfaConsole
namespace Console

/-! ### What is kept -/

inductive View where
  | servers
  | machines
  | clients
  | recovery
  deriving DecidableEq

/-- Two consoles with the same views, but for one that may differ. -/
structure Keeps (changed : Option View) (c c' : Console) : Prop where
  servers : changed ≠ some .servers → c'.servers = c.servers
  machines : changed ≠ some .machines → c'.machines = c.machines
  clients : changed ≠ some .clients → c'.clients = c.clients
  recovery : changed ≠ some .recovery → c'.recovery = c.recovery

namespace Keeps
variable {v : Option View} {a b c : Console}

theorem refl (v : Option View) (c : Console) : Keeps v c c := ⟨fun _ => rfl, fun _ => rfl, fun _ => rfl, fun _ => rfl⟩

theorem trans (h : Keeps v a b) (k : Keeps v b c) : Keeps v a c :=
  ⟨fun n => (k.servers n).trans (h.servers n), fun n => (k.machines n).trans (h.machines n),
    fun n => (k.clients n).trans (h.clients n), fun n => (k.recovery n).trans (h.recovery n)⟩

theorem sameServers (h : Keeps none a b) : b.servers = a.servers := h.servers (by simp)

theorem sameMachines (h : Keeps none a b) : b.machines = a.machines := h.machines (by simp)

theorem weaken (h : Keeps none a b) (v : Option View) : Keeps v a b :=
  ⟨fun _ => h.sameServers, fun _ => h.sameMachines, fun _ => h.clients (by simp), fun _ => h.recovery (by simp)⟩

theorem onServers (hm : b.machines = a.machines) (hc : b.clients = a.clients) (hr : b.recovery = a.recovery) :
    Keeps (some .servers) a b :=
  ⟨fun n => absurd rfl n, fun _ => hm, fun _ => hc, fun _ => hr⟩

theorem onMachines (hs : b.servers = a.servers) (hc : b.clients = a.clients) (hr : b.recovery = a.recovery) :
    Keeps (some .machines) a b :=
  ⟨fun _ => hs, fun n => absurd rfl n, fun _ => hc, fun _ => hr⟩

theorem onClients (hs : b.servers = a.servers) (hm : b.machines = a.machines) (hr : b.recovery = a.recovery) :
    Keeps (some .clients) a b :=
  ⟨fun _ => hs, fun _ => hm, fun n => absurd rfl n, fun _ => hr⟩

theorem onRecovery (hs : b.servers = a.servers) (hm : b.machines = a.machines) (hc : b.clients = a.clients) :
    Keeps (some .recovery) a b :=
  ⟨fun _ => hs, fun _ => hm, fun _ => hc, fun n => absurd rfl n⟩

theorem happen (c : Console) (h : Happening) : Keeps v c (c.happen h) :=
  ⟨fun _ => rfl, fun _ => rfl, fun _ => rfl, fun _ => rfl⟩

theorem inform (c : Console) (message : String) : Keeps v c (c.inform message) :=
  ⟨fun _ => rfl, fun _ => rfl, fun _ => rfl, fun _ => rfl⟩

theorem complain (c : Console) (message : String) : Keeps v c (c.complain message) :=
  ⟨fun _ => rfl, fun _ => rfl, fun _ => rfl, fun _ => rfl⟩

theorem warn (c : Console) (message : String) : Keeps v c (c.warn message) := complain c _

theorem go (c : Console) (url : String) : Keeps v c (c.go url) :=
  ⟨fun _ => rfl, fun _ => rfl, fun _ => rfl, fun _ => rfl⟩

theorem goState (c : Console) (name : String) (params : List (String × String)) :
    Keeps v c (c.goState name params) := by
  rw [Console.goState]
  split
  · exact go c _
  · exact refl v c

theorem handleFailure (c : Console) (f : Rest.Failure) : Keeps v c (c.handleFailure f) := by
  rw [Console.handleFailure]
  split
  · split
    · exact ⟨fun _ => rfl, fun _ => rfl, fun _ => rfl, fun _ => rfl⟩
    · exact complain c _
  · exact complain c _

theorem fail (c : Console) (f : Rest.Failure) : Keeps v c (c.fail f) := (happen c _).trans (handleFailure _ f)

theorem receive (c : Console) (o : Rest.Operation) (reply : Rest.Reply) : Keeps v c (c.receive o reply).1 := by
  rw [Console.receive]
  split
  · exact refl v c
  · exact fail c _

theorem of_receive {o : Rest.Operation} {reply : Rest.Reply} {outcome : Outcome o.Payload}
    (h : a.receive o reply = (b, outcome)) : Keeps v a b := by
  have := receive (v := v) a o reply
  rwa [h] at this

theorem dispatch (c : Console) (o : Rest.Operation) : Keeps v c (c.dispatch o).1 := happen c _

end Keeps

def dispatchAll (c : Console) (os : List Rest.Operation) : Console := os.foldl (fun c o => (c.dispatch o).1) c

theorem Keeps.dispatchAll {v : Option View} (os : List Rest.Operation) :
    ∀ c : Console, Keeps v c (c.dispatchAll os) := by
  induction os with
  | nil => exact refl v
  | cons o os ih => exact fun c => (Keeps.dispatch c o).trans (ih _)

theorem receive_snd (c : Console) (o : Rest.Operation) (reply : Rest.Reply) :
    (c.receive o reply).2 = o.outcome reply := by
  rw [receive]
  split <;> rename_i h <;> rw [h]

/-! ### Calls -/

/-- The view that a call belongs to. -/
def Call.view : Call → View
  | .mountServerList | .mountServerForm _ | .listServers _ | .setServerForm _ | .addServer _ | .saveServer
  | .deleteServer _ | .testServer _ _ | .refreshServers => .servers
  | .listMachines _ | .showDetails _ _ | .refreshTokens | .attachToken _ | .detachToken _ | .saveTokenOptions _
  | .refreshMachines => .machines
  | .mountClients _ | .listClients => .clients
  | .requestCode _ | .resetPassword _ _ => .recovery

theorem Keeps.refreshTokens (c : Console) : Keeps (some .machines) c c.refreshTokens.1 := by
  rw [Console.refreshTokens]
  split
  · exact refl _ c
  · exact onMachines rfl rfl rfl

/-- A call changes no view at once but its own. -/
theorem keeps_begin (c : Console) (call : Call) : Keeps (some call.view) c (c.begin call).1 := by
  cases call with
  | mountServerList => rw [begin, mountServerList]; split <;> exact .onServers rfl rfl rfl
  | mountServerForm identifier => cases identifier <;> exact .onServers rfl rfl rfl
  | listServers | setServerForm | refreshServers => exact .onServers rfl rfl rfl
  | addServer form =>
    rw [begin, addServer]
    split
    · exact .refl _ c
    · exact .warn c _
  | saveServer =>
    rw [begin, saveServer]
    split
    · exact .refl _ c
    · exact .warn c _
  | listMachines | showDetails => exact .onMachines rfl rfl rfl
  | refreshTokens =>
    have := Keeps.refreshTokens c
    rw [begin]
    split <;> rename_i h <;> rw [h] at this <;> exact this
  | refreshMachines => rw [begin, refreshMachines]; split <;> exact .onMachines rfl rfl rfl
  | mountClients path =>
    rw [begin, mountClients]
    split
    · exact .onClients rfl rfl rfl
    · exact .refl _ c
  | listClients => exact .onClients rfl rfl rfl
  | requestCode request => exact .onRecovery rfl rfl rfl
  | resetPassword reset confirmation => rw [begin, resetPassword]; split <;> exact .onRecovery rfl rfl rfl
  | deleteServer | testServer | attachToken | detachToken | saveTokenOptions => exact .refl _ c

/-! ### Replies -/

/-- What is to be done with a reply. -/
inductive Purpose where
  | ending (e : Ending)
  | writing (w : Writing)
  | applications

def Purpose.operation : Purpose → Rest.Operation
  | .ending e => e.operation
  | .writing w => w.operation
  | .applications => .applications

/-- Whether a change is one of the tokens of a machine; the others are changes of the definitions of servers. -/
def Writing.isOfTokens : Writing → Bool
  | .attach _ | .detach _ | .saveOptions _ => true
  | .addServer _ | .saveServer _ | .deleteServer _ => false

def Writing.isAnswered (w : Writing) (reply : Rest.Reply) : Bool := (w.operation.outcome reply).isOk

/-- The view that a reply may change. -/
def Purpose.view : Purpose → Option View
  | .ending (.serverList _ _) => some .servers
  | .ending (.machineList _) | .ending (.tokenList _) => some .machines
  | .ending .clientList => some .clients
  | .ending (.recoveryCode _) | .ending (.passwordReset _) => some .recovery
  | .writing w => some (if w.isOfTokens then .machines else .servers)
  | .ending (.serverTest _) | .applications => none

/-- What is awaited after the first changes of a call. -/
def Opening.purposes : Opening → List Purpose
  | .settled => []
  | .ending e => [.ending e]
  | .writing w => [.writing w]
  | .details tokens => [.ending tokens, .applications]

/-- What a call asks for belongs to its own view. -/
theorem view_of_mem_purposes {c : Console} {call : Call} {p : Purpose} (h : p ∈ (c.begin call).2.purposes) :
    ∀ v ∈ p.view, v = call.view := by
  have settled : p ∉ Opening.settled.purposes := List.not_mem_nil
  have one {q : Purpose} (hq : ∀ v ∈ q.view, v = call.view) (hm : p ∈ [q]) : ∀ v ∈ p.view, v = call.view :=
    List.mem_singleton.mp hm ▸ hq
  revert h
  cases call with
  | mountServerList =>
    rw [begin, mountServerList]
    split
    · exact fun h => absurd h settled
    · exact one fun v hv => (Option.some.inj hv).symm
  | mountServerForm identifier =>
    cases identifier with
    | none => exact fun h => absurd h settled
    | some identifier => exact one fun v hv => (Option.some.inj hv).symm
  | setServerForm form => exact fun h => absurd h settled
  | addServer form =>
    rw [begin, addServer]
    split
    · exact one fun v hv => (Option.some.inj hv).symm
    · exact fun h => absurd h settled
  | saveServer =>
    rw [begin, saveServer]
    split
    · exact one fun v hv => (Option.some.inj hv).symm
    · exact fun h => absurd h settled
  | testServer username password =>
    refine one fun v hv => ?_
    cases hv
  | showDetails machineId resolver =>
    intro h
    rcases List.mem_cons.mp h with rfl | h
    · exact fun v hv => (Option.some.inj hv).symm
    · cases List.mem_singleton.mp h
      intro v hv
      cases hv
  | refreshTokens =>
    rw [begin, refreshTokens]
    cases c.machines.selected with
    | none => exact fun h => absurd h settled
    | some machine => exact one fun v hv => (Option.some.inj hv).symm
  | refreshMachines =>
    rw [begin, refreshMachines]
    cases c.machines.selected with
    | none => exact one fun v hv => (Option.some.inj hv).symm
    | some machine => exact one fun v hv => (Option.some.inj hv).symm
  | mountClients path =>
    rw [begin, mountClients]
    split
    · exact one fun v hv => (Option.some.inj hv).symm
    · exact fun h => absurd h settled
  | resetPassword reset confirmation =>
    rw [begin, resetPassword]
    split
    · exact one fun v hv => (Option.some.inj hv).symm
    · exact fun h => absurd h settled
  | listServers | deleteServer | refreshServers | listMachines | attachToken | detachToken | saveTokenOptions
  | listClients | requestCode => exact one fun v hv => (Option.some.inj hv).symm

/-- What a reply does at once, and the listing that follows it. -/
def answer (c : Console) : Purpose → Rest.Reply → Console × Option Ending
  | .ending e, reply => (c.conclude e reply, none)
  | .writing w, reply => c.proceed w reply
  | .applications, reply => ((c.applicationsListed reply).1, none)

theorem tokensWritten_cases (c : Console) (o : Rest.Operation) (message : String) (reply : Rest.Reply) :
    ∃ c', Keeps none c c' ∧
      ((o.outcome reply).isOk = false ∧ c.tokensWritten o message reply = (c', none) ∨
        (o.outcome reply).isOk = true ∧ c.tokensWritten o message reply = c'.refreshTokens) := by
  rw [tokensWritten, ← receive_snd c]
  rcases h : c.receive o reply with ⟨c', f | e⟩
  · exact ⟨c', .of_receive h, Or.inl ⟨rfl, rfl⟩⟩
  · refine ⟨_, (Keeps.of_receive h).trans ?_, Or.inr ⟨rfl, rfl⟩⟩
    split
    · exact .inform _ _
    · cases e.errorMessage with
      | none => exact .refl _ c'
      | some message => exact .complain c' message

/-- The reply to a change of tokens is followed by a listing of those of the machine chosen, if the backend has
    answered. -/
theorem proceed_of_isOfTokens (c : Console) {w : Writing} (hw : w.isOfTokens = true) (reply : Rest.Reply) :
    ∃ c', Keeps none c c' ∧ (w.isAnswered reply = false ∧ c.proceed w reply = (c', none) ∨
      w.isAnswered reply = true ∧ c.proceed w reply = c'.refreshTokens) := by
  cases w with
  | attach | detach | saveOptions => exact tokensWritten_cases c _ _ reply
  | addServer | saveServer | deleteServer => cases hw

/-- The reply to a change of a definition is followed by a listing of the definitions, if the backend has answered. -/
theorem proceed_of_not_isOfTokens (c : Console) {w : Writing} (hw : w.isOfTokens = false) (reply : Rest.Reply) :
    ∃ c', Keeps none c c' ∧ (w.isAnswered reply = false ∧ c.proceed w reply = (c', none) ∨
      w.isAnswered reply = true ∧ ∃ saved,
        c.proceed w reply = (c'.changeServers .beginList, some (.serverList none saved))) := by
  rw [Writing.isAnswered, ← receive_snd c]
  rcases h : c.receive w.operation reply with ⟨c', outcome⟩
  refine ⟨c', .of_receive h, ?_⟩
  cases w with
  | attach | detach | saveOptions => cases hw
  | addServer form =>
    rw [proceed, serverAdded, show c.receive (.setServer form) reply = (c', outcome) from h]
    cases outcome with
    | error f => exact Or.inl ⟨rfl, rfl⟩
    | ok e => exact Or.inr ⟨rfl, none, rfl⟩
  | saveServer form =>
    rw [proceed, serverSaved, show c.receive (.setServer form) reply = (c', outcome) from h]
    cases outcome with
    | error f => exact Or.inl ⟨rfl, rfl⟩
    | ok e => exact Or.inr ⟨rfl, some e, rfl⟩
  | deleteServer identifier =>
    rw [proceed, serverDeleted, show c.receive (.deleteServer identifier) reply = (c', outcome) from h]
    cases outcome with
    | error f => exact Or.inl ⟨rfl, rfl⟩
    | ok e => exact Or.inr ⟨rfl, none, rfl⟩

theorem view_refreshTokens {c : Console} {e : Ending} (h : c.refreshTokens.2 = some e) :
    (Purpose.ending e).view = some .machines := by
  rw [refreshTokens] at h
  split at h
  · cases h
  · cases h
    rfl

/-- What is asked for after a reply belongs to the view of the reply. -/
theorem view_answer {c : Console} {p : Purpose} {reply : Rest.Reply} {e : Ending}
    (h : (c.answer p reply).2 = some e) : (Purpose.ending e).view = p.view := by
  cases p with
  | ending | applications => cases h
  | writing w =>
    rw [answer] at h
    rw [Purpose.view]
    cases hw : w.isOfTokens with
    | true =>
      obtain ⟨c', -, ⟨-, eq⟩ | ⟨-, eq⟩⟩ := proceed_of_isOfTokens c hw reply
      · rw [eq] at h
        cases h
      · rw [eq] at h
        exact view_refreshTokens h
    | false =>
      obtain ⟨c', -, ⟨-, eq⟩ | ⟨-, saved, eq⟩⟩ := proceed_of_not_isOfTokens c hw reply
      · rw [eq] at h
        cases h
      · rw [eq] at h
        cases h
        rfl

theorem Keeps.confirmSave (c : Console) (saved : Wire.Envelope Json) :
    Keeps (some .servers) c (c.confirmSave saved) := by
  rw [Console.confirmSave]
  split
  · have told : Keeps (some .servers) c ((c.changeServers fun v => { v with fresh := true }).inform savedMessage) :=
      onServers rfl rfl rfl
    exact told.trans (goState _ _ _)
  · cases saved.errorMessage with
    | none => exact refl _ c
    | some message => exact complain c message

theorem keeps_conclude (c : Console) (e : Ending) (reply : Rest.Reply) :
    Keeps (Purpose.ending e).view c (c.conclude e reply) := by
  cases e with
  | serverList load saved =>
    rw [conclude, serversListed]
    rcases h : c.receive .servers reply with ⟨c', outcome⟩
    have listed : Keeps (some .servers) c (c'.changeServers (.endList load outcome)) :=
      (Keeps.of_receive h).trans (.onServers rfl rfl rfl)
    cases saved with
    | none => exact listed
    | some e => exact listed.trans (.confirmSave _ e)
  | serverTest test =>
    rw [conclude, serverTested]
    split
    · next h => exact .of_receive h
    · next h =>
      refine (Keeps.of_receive h).trans ?_
      split
      · exact .inform _ _
      · exact .warn _ _
  | machineList filter => exact (Keeps.receive c _ reply).trans (.onMachines rfl rfl rfl)
  | tokenList filter => exact (Keeps.receive c _ reply).trans (.onMachines rfl rfl rfl)
  | clientList => exact (Keeps.receive c _ reply).trans (.onClients rfl rfl rfl)
  | recoveryCode request =>
    refine (Keeps.receive c (.requestCode request) reply).trans ?_
    rw [conclude, codeRequested]
    dsimp only
    split <;> exact .onRecovery rfl rfl rfl
  | passwordReset reset =>
    refine (Keeps.receive c (.resetPassword reset) reply).trans ?_
    rw [conclude, passwordSet]
    dsimp only
    split <;> exact .onRecovery rfl rfl rfl

theorem keeps_proceed (c : Console) (w : Writing) (reply : Rest.Reply) :
    Keeps (Purpose.writing w).view c (c.proceed w reply).1 := by
  rw [Purpose.view]
  cases hw : w.isOfTokens with
  | true =>
    obtain ⟨c', kept, ⟨-, eq⟩ | ⟨-, eq⟩⟩ := proceed_of_isOfTokens c hw reply
    · rw [eq]
      exact kept.weaken _
    · rw [eq]
      exact (kept.weaken _).trans (.refreshTokens c')
  | false =>
    obtain ⟨c', kept, ⟨-, eq⟩ | ⟨-, saved, eq⟩⟩ := proceed_of_not_isOfTokens c hw reply
    · rw [eq]
      exact kept.weaken _
    · rw [eq]
      exact (kept.weaken _).trans (.onServers rfl rfl rfl)

theorem Keeps.applicationsListed (c : Console) (reply : Rest.Reply) : Keeps none c (c.applicationsListed reply).1 := by
  rw [Console.applicationsListed]
  split <;> next h => exact of_receive h

/-- A reply changes no view but the one it belongs to. -/
theorem keeps_answer (c : Console) (p : Purpose) (reply : Rest.Reply) : Keeps p.view c (c.answer p reply).1 := by
  cases p with
  | ending e => exact keeps_conclude c e reply
  | writing w => exact keeps_proceed c w reply
  | applications => exact .applicationsListed c reply

end Console
end MfaConsole
