import MfaConsole.Proofs.Console.Reached

/-! What happens at a desk, as the view of the definitions of servers sees it: which calls and replies change it, and
    how. -/

namespace MfaConsole
namespace Console

namespace ServersView

def called (v : ServersView) : Call → ServersView
  | .mountServerList => if v.fresh then { v with fresh := false } else v.beginList
  | .mountServerForm none => v.openForm none
  | .mountServerForm (some identifier) => (v.openForm (some identifier)).beginList
  | .listServers _ | .refreshServers => v.beginList
  | .setServerForm form => { v with form }
  | _ => v

/-- The view after a listing, which is fresh if it ends a save that was carried out. -/
def listed (v : ServersView) (load : Option String) (saved : Option (Wire.Envelope Json))
    (outcome : Outcome (KeyMap Wire.ServerDefinition)) : ServersView :=
  if saved.any (·.succeeded) then { v.endList load outcome with fresh := true } else v.endList load outcome

def answered (v : ServersView) : Purpose → Rest.Reply → ServersView
  | .ending (.serverList load saved), reply => v.listed load saved (Rest.Operation.servers.outcome reply)
  | .writing w, reply => if !w.isOfTokens && w.isAnswered reply then v.beginList else v
  | _, _ => v

end ServersView

variable (c : Console)

theorem servers_begin (call : Call) : (c.begin call).1.servers = c.servers.called call := by
  have kept := (keeps_begin c call).servers
  cases call with
  | mountServerList =>
    rw [begin, mountServerList, ServersView.called]
    split <;> rfl
  | mountServerForm identifier => cases identifier <;> rfl
  | addServer form => rw [begin, addServer]; split <;> rfl
  | saveServer => rw [begin, saveServer]; split <;> rfl
  | listServers | setServerForm | deleteServer | testServer | refreshServers => rfl
  | _ => exact kept (by simp [Call.view])

theorem servers_confirmSave (saved : Wire.Envelope Json) :
    (c.confirmSave saved).servers = if saved.succeeded then { c.servers with fresh := true } else c.servers := by
  rw [confirmSave]
  split
  · exact (Keeps.goState _ _ _).sameServers
  · cases saved.errorMessage <;> rfl

theorem servers_serversListed (load : Option String) (saved : Option (Wire.Envelope Json)) (reply : Rest.Reply) :
    (c.serversListed load saved reply).servers =
      c.servers.listed load saved (Rest.Operation.servers.outcome reply) := by
  rw [serversListed, ← receive_snd c]
  rcases h : c.receive .servers reply with ⟨c', outcome⟩
  rw [← (Keeps.of_receive h).sameServers]
  cases saved with
  | none => rfl
  | some e => exact servers_confirmSave _ e

theorem servers_proceed {w : Writing} (hw : w.isOfTokens = false) (reply : Rest.Reply) :
    (c.proceed w reply).1.servers = if w.isAnswered reply then c.servers.beginList else c.servers := by
  obtain ⟨c', kept, ⟨ha, eq⟩ | ⟨ha, saved, eq⟩⟩ := proceed_of_not_isOfTokens c hw reply
  · rw [eq, ha]
    exact kept.sameServers
  · rw [eq, ha]
    exact congrArg ServersView.beginList kept.sameServers

/-- A reply changes the view as it says, whatever it is for. -/
theorem servers_answer (p : Purpose) (reply : Rest.Reply) :
    (c.answer p reply).1.servers = c.servers.answered p reply := by
  have kept := (keeps_answer c p reply).servers
  cases p with
  | applications => exact kept (by simp [Purpose.view])
  | ending e =>
    cases e with
    | serverList load saved => exact servers_serversListed c load saved reply
    | _ => exact kept (by simp [Purpose.view])
  | writing w =>
    rw [ServersView.answered]
    cases hw : w.isOfTokens with
    | true => exact kept (by simp [Purpose.view, hw])
    | false => exact servers_proceed c hw reply

/-- A change of a definition that the backend has not answered is followed by no listing. -/
theorem answer_snd_of_not_isAnswered {w : Writing} (hw : w.isOfTokens = false) {reply : Rest.Reply}
    (h : w.isAnswered reply = false) : (c.answer (.writing w) reply).2 = none := by
  rw [answer]
  obtain ⟨c', -, ⟨-, eq⟩ | ⟨ha, -⟩⟩ := proceed_of_not_isOfTokens c hw reply
  · rw [eq]
  · exact absurd (ha.symm.trans h) (by simp)

/-! ### Fresh listings -/

theorem fresh_endList (v : ServersView) (load : Option String) (outcome : Outcome (KeyMap Wire.ServerDefinition)) :
    (v.endList load outcome).fresh = v.fresh := by
  cases outcome with
  | error f => rfl
  | ok e =>
    cases load with
    | none => rfl
    | some identifier =>
      rw [ServersView.endList, Option.elim_some, ServersView.loadForm]
      split <;> rfl

theorem servers_endList_ok (v : ServersView) (load : Option String)
    (e : Wire.Envelope (KeyMap Wire.ServerDefinition)) :
    (v.endList load (.ok e)).servers = e.value.getD KeyMap.empty := by
  cases load with
  | none => rfl
  | some identifier =>
    rw [ServersView.endList, Option.elim_some, ServersView.loadForm]
    split <;> rfl

theorem servers_listed_ok (v : ServersView) (load : Option String) (saved : Option (Wire.Envelope Json))
    (e : Wire.Envelope (KeyMap Wire.ServerDefinition)) :
    (v.listed load saved (.ok e)).servers = e.value.getD KeyMap.empty := by
  rw [ServersView.listed]
  split <;> exact servers_endList_ok v load e

/-- A listing is fresh if a save that was carried out waited for it, or if it was so before. -/
theorem fresh_listed {v : ServersView} {load : Option String} {saved : Option (Wire.Envelope Json)}
    {outcome : Outcome (KeyMap Wire.ServerDefinition)} (h : (v.listed load saved outcome).fresh = true) :
    v.fresh = true ∨ ∃ e, saved = some e := by
  rw [ServersView.listed] at h
  split at h
  · next hs =>
    obtain ⟨e, he, -⟩ := (Option.any_eq_true _ _).mp hs
    exact Or.inr ⟨e, he⟩
  · exact Or.inl ((fresh_endList v load outcome).symm.trans h)

/-- No call makes the listing fresh, and one that leaves it so leaves the listing as it is. -/
theorem fresh_called {v : ServersView} {call : Call} (h : (v.called call).fresh = true) :
    v.fresh = true ∧ (v.called call).servers = v.servers := by
  cases call with
  | mountServerList =>
    rw [ServersView.called] at h
    split at h <;> cases h
  | mountServerForm identifier => cases identifier <;> cases h
  | listServers | refreshServers => cases h
  | _ => exact ⟨h, rfl⟩

/-- The identifier of the definition that a call has filled into the form. -/
def Call.fills? : Call → Option String
  | .mountServerForm identifier | .listServers identifier => identifier
  | _ => none

/-- A call that lists the definitions takes the freshness of the listing, and no save waits for it. -/
theorem serverList_begin {call : Call} {load : Option String} {saved : Option (Wire.Envelope Json)}
    (h : .ending (.serverList load saved) ∈ (c.begin call).2.purposes) :
    saved = none ∧ load = call.fills? ∧ (c.begin call).1.servers.fresh = false := by
  have own : call.view = .servers := (view_of_mem_purposes h .servers rfl).symm
  revert h
  cases call with
  | mountServerList =>
    rw [begin, mountServerList]
    split
    · exact fun h => absurd h List.not_mem_nil
    · intro h
      cases List.mem_singleton.mp h
      exact ⟨rfl, rfl, rfl⟩
  | mountServerForm identifier =>
    cases identifier with
    | none => exact fun h => absurd h List.not_mem_nil
    | some identifier =>
      intro h
      cases List.mem_singleton.mp h
      exact ⟨rfl, rfl, rfl⟩
  | listServers | refreshServers =>
    intro h
    cases List.mem_singleton.mp h
    exact ⟨rfl, rfl, rfl⟩
  | setServerForm => exact fun h => absurd h List.not_mem_nil
  | addServer form =>
    rw [begin, addServer]
    split
    · intro h
      cases List.mem_singleton.mp h
    · exact fun h => absurd h List.not_mem_nil
  | saveServer =>
    rw [begin, saveServer]
    split
    · intro h
      cases List.mem_singleton.mp h
    · exact fun h => absurd h List.not_mem_nil
  | deleteServer | testServer =>
    intro h
    cases List.mem_singleton.mp h
  | _ => cases own

/-- The list view opens without a request exactly if its listing is fresh. -/
theorem purposes_mountServerList :
    (c.begin .mountServerList).2.purposes = [] ↔ c.servers.fresh = true := by
  rw [begin, mountServerList]
  split
  · next h => exact iff_of_true rfl h
  · next h => exact iff_of_false (List.cons_ne_nil _ _) h

end Console
end MfaConsole
