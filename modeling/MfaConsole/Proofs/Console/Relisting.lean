import Mathlib.Data.List.Induction
import MfaConsole.Proofs.Console.Exchanges
import MfaConsole.Proofs.Console.ServersEffect

/-! The definitions of servers as the backend alone has them. Each change that the backend answers is followed by one
    listing, and what is shown is what the last listing brought, whatever was changed in between. -/

namespace MfaConsole
namespace Console

/-! ### Listings -/

/-- What an exchange brought, if it is a listing of the definitions that came. -/
def Exchange.listing? (e : Rest.Endpoints) (x : Exchange) : Option (Wire.Envelope (KeyMap Wire.ServerDefinition)) :=
  if x.request.method = .get ∧ x.request.url = e.servers then (Rest.Operation.servers.outcome x.reply).toOption
  else none

/-- What the last listing among the exchanges brought, no definitions if it had no value; and what was there before if
    none came. -/
def lastListed (e : Rest.Endpoints) (made : List Exchange) (before : KeyMap Wire.ServerDefinition) :
    KeyMap Wire.ServerDefinition :=
  (made.filterMap (Exchange.listing? e)).getLast?.elim before fun envelope => envelope.value.getD KeyMap.empty

theorem lastListed_append (e : Rest.Endpoints) (made more : List Exchange) (before : KeyMap Wire.ServerDefinition) :
    lastListed e (made ++ more) before = lastListed e more (lastListed e made before) := by
  rw [lastListed, List.filterMap_append, List.getLast?_append, lastListed, lastListed]
  cases (more.filterMap (Exchange.listing? e)).getLast? <;> rfl

theorem lastListed_cons_of_ne_get {e : Rest.Endpoints} {x : Exchange} (h : x.request.method ≠ .get)
    (made : List Exchange) (before : KeyMap Wire.ServerDefinition) :
    lastListed e (x :: made) before = lastListed e made before := by
  have none : x.listing? e = none := if_neg fun k => h k.1
  rw [lastListed, List.filterMap_cons, none, lastListed]

theorem lastListed_listing (c : Console) (reply : Rest.Reply) (before : KeyMap Wire.ServerDefinition) :
    lastListed c.setup.endpoints [⟨c.asked .servers, reply⟩] before =
      (Rest.Operation.servers.outcome reply).toOption.elim before fun envelope => envelope.value.getD KeyMap.empty := by
  have listed : Exchange.listing? c.setup.endpoints ⟨c.asked .servers, reply⟩ =
      (Rest.Operation.servers.outcome reply).toOption := if_pos ⟨rfl, rfl⟩
  rw [lastListed, List.filterMap_cons, listed]
  cases (Rest.Operation.servers.outcome reply).toOption <;> rfl

theorem servers_listed (v : ServersView) (load : Option String) (saved : Option (Wire.Envelope Json))
    (outcome : Outcome (KeyMap Wire.ServerDefinition)) : (v.listed load saved outcome).servers =
      outcome.toOption.elim v.servers fun envelope => envelope.value.getD KeyMap.empty := by
  cases outcome with
  | ok e => exact servers_listed_ok v load saved e
  | error f =>
    rw [ServersView.listed]
    split <;> rfl

theorem loading_endList (v : ServersView) (load : Option String) (outcome : Outcome (KeyMap Wire.ServerDefinition)) :
    (v.endList load outcome).loading = false := by
  cases outcome with
  | error f => rfl
  | ok e =>
    cases load with
    | none => rfl
    | some identifier =>
      rw [ServersView.endList, Option.elim_some, ServersView.loadForm]
      split <;> rfl

theorem loading_listed (v : ServersView) (load : Option String) (saved : Option (Wire.Envelope Json))
    (outcome : Outcome (KeyMap Wire.ServerDefinition)) : (v.listed load saved outcome).loading = false := by
  rw [ServersView.listed]
  split <;> exact loading_endList v load outcome

section Listed
variable {c begun : Console} (load : Option String) (saved : Option (Wire.Envelope Json)) (reply : Rest.Reply)

/-- The reply to a listing is shown as the last one that came. -/
theorem definitions_conclude (same : SameSetup c begun) (hs : begun.servers.servers = c.servers.servers) :
    ((begun.dispatch .servers).1.conclude (.serverList load saved) reply).servers.servers =
      lastListed c.setup.endpoints [⟨begun.asked .servers, reply⟩] c.servers.servers := by
  rw [same.asked, lastListed_listing, ← hs]
  exact (congrArg ServersView.servers (servers_serversListed (begun.dispatch .servers).1 load saved reply)).trans
    (servers_listed _ _ _ _)

theorem loading_conclude (c : Console) : (c.conclude (.serverList load saved) reply).servers.loading = false :=
  (congrArg ServersView.loading (servers_serversListed c load saved reply)).trans (loading_listed _ _ _ _)

end Listed

/-! ### What a call exchanges -/

/-- The definitions are listed, once. -/
def Lists (asked : Rest.Operation → Rest.Request) (made : List Exchange) : Prop :=
  ∃ reply, made = [⟨asked .servers, reply⟩]

/-- A change is sent, once. If it was answered the definitions are listed after it, once; if not they are not, and the
    view stays as it was. -/
def Changes (asked : Rest.Operation → Rest.Request) (w : Writing) (before : ServersView) (made : List Exchange)
    (after : ServersView) : Prop :=
  ∃ answer, w.isAnswered answer = true ∧ (∃ reply, made = [⟨asked w.operation, answer⟩, ⟨asked .servers, reply⟩]) ∨
    w.isAnswered answer = false ∧ made = [⟨asked w.operation, answer⟩] ∧ after = before

/-- What each call of the definitions of servers has to exchange, and when the view has to stay as it was. -/
def RelistsOnce (asked : Rest.Operation → Rest.Request) (before : ServersView) (made : List Exchange)
    (after : ServersView) : Call → Prop
  | .mountServerList => if before.fresh then made = [] else Lists asked made
  | .mountServerForm identifier => if identifier.isSome then Lists asked made else made = []
  | .listServers _ | .refreshServers => Lists asked made
  | .setServerForm _ => made = []
  | .addServer form =>
    if isComplete form then Changes asked (.addServer form) before made after else made = [] ∧ after = before
  | .saveServer =>
    if isComplete before.form then Changes asked (.saveServer before.form) before made after
    else made = [] ∧ after = before
  | .deleteServer identifier => Changes asked (.deleteServer identifier) before made after
  | .testServer username password =>
    ∃ reply, made = [⟨asked (.testServer (.ofForm before.form username password)), reply⟩]
  | _ => True

/-- What is shown after exchanges is what the last listing among them brought, and no listing is under way. -/
structure Shows (c : Console) (made : List Exchange) (c' : Console) : Prop where
  definitions : c'.servers.servers = lastListed c.setup.endpoints made c.servers.servers
  loading : c.servers.loading = false → c'.servers.loading = false

section Step
variable {c begun c' : Console} {made : List Exchange}

theorem shows_of_settled (h : Made begun .settled made c') (hs : begun.servers.servers = c.servers.servers)
    (hl : begun.servers.loading = c.servers.loading) : made = [] ∧ c'.servers = begun.servers ∧ Shows c made c' := by
  cases h
  exact ⟨rfl, rfl, hs, hl.trans⟩

theorem shows_of_listing {load : Option String} (h : Made begun (.ending (.serverList load none)) made c')
    (same : SameSetup c begun) (hs : begun.servers.servers = c.servers.servers) :
    Lists c.asked made ∧ Shows c made c' := by
  cases h with
  | ending e reply =>
    refine ⟨⟨reply, congrArg (fun r => [Exchange.mk r reply]) (same.asked .servers)⟩, ?_, fun _ => ?_⟩
    · exact definitions_conclude load none reply same hs
    · exact loading_conclude load none reply (begun.dispatch .servers).1

theorem shows_of_test {test : Wire.ConnectionTest} (h : Made c (.ending (.serverTest test)) made c') :
    (∃ reply, made = [⟨c.asked (.testServer test), reply⟩]) ∧ Shows c made c' := by
  cases h with
  | ending e reply =>
    have kept : ((c.dispatch (.testServer test)).1.conclude (.serverTest test) reply).servers = c.servers :=
      (keeps_conclude (c.dispatch (.testServer test)).1 (.serverTest test) reply).servers (by simp [Purpose.view])
    have posted : (c.asked (.testServer test)).method ≠ .get := fun h => Rest.Method.noConfusion h
    refine ⟨⟨reply, rfl⟩, ?_, fun hl => (congrArg ServersView.loading kept).trans hl⟩
    have same : ((c.dispatch (.testServer test)).1.conclude (.serverTest test) reply).servers.servers =
        c.servers.servers := congrArg ServersView.servers kept
    exact same.trans (lastListed_cons_of_ne_get (x := ⟨c.asked (.testServer test), reply⟩) posted [] _).symm

theorem ne_get_of_not_isOfTokens {w : Writing} (hw : w.isOfTokens = false) (c : Console) :
    (c.asked w.operation).method ≠ .get := by
  cases w with
  | attach | detach | saveOptions => cases hw
  | addServer | saveServer | deleteServer => exact fun h => Rest.Method.noConfusion h

theorem shows_of_writing {w : Writing} (hw : w.isOfTokens = false) (h : Made c (.writing w) made c') :
    Changes c.asked w c.servers made c'.servers ∧ Shows c made c' := by
  have ne := ne_get_of_not_isOfTokens hw c
  cases h with
  | @written _ _ reply h =>
    obtain ⟨middle, kept, ⟨refused, eq⟩ | ⟨-, saved, eq⟩⟩ :=
      proceed_of_not_isOfTokens (c.dispatch w.operation).1 hw reply
    · cases h.symm.trans eq
      have same : c'.servers = c.servers := kept.sameServers
      refine ⟨⟨reply, Or.inr ⟨refused, rfl, same⟩⟩, ?_, fun hl => (congrArg ServersView.loading same).trans hl⟩
      rw [lastListed_cons_of_ne_get ne]
      exact congrArg ServersView.servers same
    · cases h.symm.trans eq
  | @relisted middle _ answer e reply h =>
    have same : SameSetup c middle := by
      have kept := sameSetup_proceed (c.dispatch w.operation).1 w answer
      rw [h] at kept
      exact SameSetup.trans (b := (c.dispatch w.operation).1) ⟨rfl, rfl⟩ kept
    obtain ⟨answered, kept, ⟨-, eq⟩ | ⟨ok, saved, eq⟩⟩ := proceed_of_not_isOfTokens (c.dispatch w.operation).1 hw answer
    · cases h.symm.trans eq
    · cases h.symm.trans eq
      have before : (answered.changeServers .beginList).servers.servers = c.servers.servers :=
        congrArg (fun v => v.beginList.servers) kept.sameServers
      refine ⟨⟨answer, Or.inl ⟨ok, reply, ?_⟩⟩, ?_, fun _ => ?_⟩
      · exact congrArg (fun r => [Exchange.mk (c.asked w.operation) answer, ⟨r, reply⟩]) (same.asked .servers)
      · rw [lastListed_cons_of_ne_get ne]
        exact definitions_conclude none saved reply same before
      · exact loading_conclude none saved reply ((answered.changeServers .beginList).dispatch .servers).1

/-- A form is sent if it is complete; if not, nothing is sent and the view stays as it was. -/
theorem shows_of_checked {form : Wire.ServerForm} {w : Writing} (hw : w.isOfTokens = false)
    (h : let opened : Console × Opening :=
        if isComplete form then (c, .writing w) else (c.warn requiredMessage, .settled)
      Made opened.1 opened.2 made c') :
    (if isComplete form then Changes c.asked w c.servers made c'.servers else made = [] ∧ c'.servers = c.servers) ∧
      Shows c made c' := by
  dsimp only at h
  split at h
  · next complete =>
    obtain ⟨changes, shows⟩ := shows_of_writing hw h
    exact ⟨(if_pos complete).mpr changes, shows⟩
  · next blank =>
    obtain ⟨none, same, shows⟩ := shows_of_settled (c := c) h rfl rfl
    exact ⟨(if_neg blank).mpr ⟨none, same⟩, shows⟩

/-- Each call of the definitions of servers exchanges what it has to, and shows the listing that came. -/
theorem relists_made {call : Call} (own : call.view = .servers) (h : Made (c.begin call).1 (c.begin call).2 made c') :
    RelistsOnce c.asked c.servers made c'.servers call ∧ Shows c made c' := by
  cases call with
  | mountServerList =>
    rw [begin, mountServerList] at h
    rw [RelistsOnce]
    split at h
    · next fresh =>
      obtain ⟨none, -, shows⟩ := shows_of_settled (c := c) h rfl rfl
      exact ⟨(if_pos fresh).mpr none, shows⟩
    · next stale =>
      obtain ⟨lists, shows⟩ := shows_of_listing (c := c) h ⟨rfl, rfl⟩ rfl
      exact ⟨(if_neg stale).mpr lists, shows⟩
  | mountServerForm identifier =>
    cases identifier with
    | none =>
      obtain ⟨none, -, shows⟩ := shows_of_settled (c := c) h rfl rfl
      exact ⟨none, shows⟩
    | some identifier => exact shows_of_listing (c := c) h ⟨rfl, rfl⟩ rfl
  | listServers | refreshServers => exact shows_of_listing (c := c) h ⟨rfl, rfl⟩ rfl
  | setServerForm form =>
    obtain ⟨none, -, shows⟩ := shows_of_settled (c := c) h rfl rfl
    exact ⟨none, shows⟩
  | addServer form => exact shows_of_checked (w := .addServer form) rfl h
  | saveServer => exact shows_of_checked (w := .saveServer c.servers.form) rfl h
  | deleteServer => exact shows_of_writing rfl h
  | testServer => exact shows_of_test h
  | _ => cases own

end Step

/-! ### Calls one after the other -/

theorem Shows.trans {a b c : Console} {made more : List Exchange} (same : SameSetup a b) (h : Shows a made b)
    (k : Shows b more c) : Shows a (made ++ more) c where
  definitions := by
    rw [lastListed_append, ← h.definitions, ← same.setup]
    exact k.definitions
  loading := k.loading ∘ h.loading

section Run
variable (reply : List Exchange → Rest.Request → Rest.Reply) (first : Console)

/-- Whatever calls were made, what is shown is what the last listing brought. -/
theorem shows_calls (calls : List Call) (own : ∀ call ∈ calls, call.view = .servers) :
    let d := calls.foldl (Desk.call (prompt reply)) (.ofConsole first [])
    SameSetup first d.console ∧ Shows first d.backend d.console := by
  induction calls using List.reverseRecOn with
  | nil => exact ⟨.refl first, rfl, id⟩
  | append_singleton calls call ih =>
    obtain ⟨same, shows⟩ := ih fun call h => own call (List.mem_append_left _ h)
    rw [List.foldl_append, List.foldl_cons, List.foldl_nil]
    obtain ⟨made, backend, through⟩ :=
      Desk.made_call reply (calls.foldl (Desk.call (prompt reply)) (.ofConsole first [])) call
    obtain ⟨-, after⟩ := relists_made (own call (List.mem_append_right _ (List.mem_singleton_self call))) through
    dsimp only
    rw [backend]
    exact ⟨(same.trans (sameSetup_begin _ call)).trans through.sameSetup, shows.trans same after⟩

/-- Where calls are made one after the other, whatever the backend answers, what is shown is what the last listing
    brought, no listing is under way between calls, and each call lists as often as it has to. -/
theorem serverCalls_relist (idle : first.servers.loading = false) (calls : List Call)
    (own : ∀ call ∈ calls, call.view = .servers) :
    let d := calls.foldl (Desk.call (prompt reply)) (.ofConsole first [])
    d.console.servers.servers = lastListed first.setup.endpoints d.backend first.servers.servers ∧
      d.console.servers.loading = false ∧
      ∀ call : Call, call.view = .servers → ∃ made,
        (d.call (prompt reply) call).backend = d.backend ++ made ∧
          RelistsOnce first.asked d.console.servers made (d.call (prompt reply) call).console.servers call := by
  intro d
  obtain ⟨same, shows⟩ := shows_calls reply first calls own
  refine ⟨shows.definitions, shows.loading idle, fun call own => ?_⟩
  obtain ⟨made, backend, through⟩ := Desk.made_call reply d call
  have asks : d.console.asked = first.asked := funext same.asked
  exact ⟨made, backend, asks ▸ (relists_made own through).1⟩

end Run

/-- The backend that lists one definition at first, and none once something was exchanged. -/
def oneAtFirst (made : List Exchange) (_ : Rest.Request) : Rest.Reply :=
  carriedOut (.object (if made.isEmpty then [("x", .object [("url", .string "https://x")])] else []))

/-- A definition is listed and deleted; the definitions are listed again after that, and none is shown any more. -/
theorem serverCalls_relist_deleted :
    let d := Desk.call (prompt oneAtFirst) (.ofConsole (.start .bare none) []) .mountServerList
    let after := d.call (prompt oneAtFirst) (.deleteServer "x")
    d.console.servers.servers.keys = ["x"] ∧ after.console.servers.servers.keys = [] ∧ ∃ made,
      after.backend = d.backend ++ made ∧ made.length = 2 := by
  have own : ∀ call ∈ [Call.mountServerList, .deleteServer "x"], call.view = .servers := by simp [Call.view]
  obtain ⟨listed, -, calls⟩ := serverCalls_relist oneAtFirst (.start .bare none) rfl [.mountServerList]
    fun call h => own call (List.mem_append_left [_] h)
  obtain ⟨made, backend, -⟩ := calls (.deleteServer "x") rfl
  obtain ⟨shown, -⟩ := serverCalls_relist oneAtFirst (.start .bare none) rfl _ own
  refine ⟨(congrArg KeyMap.keys listed).trans rfl, (congrArg KeyMap.keys shown).trans rfl, made, backend, ?_⟩
  have := congrArg List.length backend
  rw [List.length_append] at this
  exact Nat.add_left_cancel this.symm

end Console
end MfaConsole
