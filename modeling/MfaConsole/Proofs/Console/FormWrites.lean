import MfaConsole.Proofs.Console.FormView
import MfaConsole.Proofs.Console.Relisting

/-! What writes to the edit form, where calls are made one after the other. Opening the form and typing into it do, and
    the listing that was to fill in a definition, if it came and has that definition. No other call does, whatever it
    sends and whatever the backend answers; so the form is as the last write left it. -/

namespace MfaConsole
namespace Console

/-! ### Writes -/

inductive FormWrite where
  | opened (identifier : Option String)
  | typed (form : Wire.ServerForm)
  | filled (l : Loaded)

namespace FormWrite

def form : FormWrite → Wire.ServerForm
  | opened _ => .blank
  | typed form => form
  | filled l => .ofDefinition l.1 l.2

/-- What the form is said to belong to by a write. Typing says nothing about that. -/
def editing? : FormWrite → Option (Option String)
  | opened identifier => some identifier
  | typed _ => none
  | filled l => some (some l.1)

end FormWrite

def Form.written (f : Form) (w : FormWrite) : Form := (w.editing?.getD f.1, w.form)

theorem Form.foldl_written (f : Form) (ws : List FormWrite) : ws.foldl Form.written f =
    ((ws.filterMap FormWrite.editing?).getLast?.getD f.1, ws.getLast?.elim f.2 FormWrite.form) := by
  induction ws using List.reverseRecOn with
  | nil => rfl
  | append_singleton ws w ih =>
    rw [List.foldl_append, ih, List.filterMap_append, List.getLast?_append, List.getLast?_append]
    cases w <;> rfl

/-- The definition of an identifier that the last listing among the exchanges brought. -/
def Loaded.ofExchanges? (e : Rest.Endpoints) (load : Option String) (made : List Exchange) : Option Loaded :=
  load.bind fun identifier =>
    ((lastListed e made KeyMap.empty).get? identifier).map fun definition => (identifier, definition)

theorem ofExchanges?_listing (c : Console) (load : Option String) (reply : Rest.Reply) :
    Loaded.ofExchanges? c.setup.endpoints load [⟨c.asked .servers, reply⟩] =
      Loaded.ofOutcome? load (Rest.Operation.servers.outcome reply) := by
  rw [Loaded.ofExchanges?, lastListed_listing]
  cases Rest.Operation.servers.outcome reply with
  | ok e => rfl
  | error f => cases load <;> rfl

/-! ### Calls -/

/-- What a call writes to the form before it sends anything. -/
def Call.write? : Call → Option FormWrite
  | .mountServerForm identifier => some (.opened identifier)
  | .setServerForm form => some (.typed form)
  | _ => none

/-- What a call with its exchanges writes to the form, in that order. -/
def Call.writes (e : Rest.Endpoints) (call : Call) (made : List Exchange) : List FormWrite :=
  call.write?.toList ++ (Loaded.ofExchanges? e call.fills? made).toList.map .filled

theorem shownForm_begin (c : Console) (call : Call) :
    (c.begin call).1.servers.shownForm = call.write?.toList.foldl Form.written c.servers.shownForm := by
  rw [servers_begin, shownForm_called]
  cases call <;> rfl

theorem shownForm_answer (c : Console) (o : Rest.Operation) (p : Purpose) (reply : Rest.Reply) :
    ((c.dispatch o).1.answer p reply).1.servers.shownForm =
      ((Event.answered p reply).loaded?.toList.map .filled).foldl Form.written c.servers.shownForm := by
  have sent : (c.dispatch o).1.servers = c.servers := (Keeps.dispatch c o).sameServers
  rw [servers_answer, shownForm_answered, Form.next_answered, sent]
  cases (Event.answered p reply).loaded? <;> rfl

theorem loaded?_of_not_filling {e : Ending} (h : ∀ identifier saved, e ≠ .serverList (some identifier) saved)
    (reply : Rest.Reply) : (Event.answered (.ending e) reply).loaded? = none := by
  cases hl : (Event.answered (.ending e) reply).loaded? with
  | none => rfl
  | some l =>
    obtain ⟨saved, reply', same⟩ := load_of_loaded? hl
    cases same
    exact absurd rfl (h l.1 saved)

/-- The identifier whose definition the listing that opens a call is to fill in. -/
def Opening.fills? : Opening → Option String
  | .ending (.serverList load _) => load
  | _ => none

theorem fills?_begin (c : Console) (call : Call) : (c.begin call).2.fills? = call.fills? := by
  cases ho : (c.begin call).2.fills? with
  | some identifier =>
    rw [Opening.fills?.eq_def] at ho
    split at ho
    · next load saved opening =>
      have asks : .ending (.serverList load saved) ∈ (c.begin call).2.purposes := by
        rw [opening]
        exact List.mem_cons_self
      rw [← ho]
      exact (serverList_begin c asks).2.1
    · cases ho
  | none =>
    cases call with
    | mountServerForm identifier =>
      cases identifier with
      | none => rfl
      | some identifier => cases ho
    | listServers load => exact ho.symm
    | _ => rfl

theorem not_filling_details {c : Console} {call : Call} {tokens : Ending} (h : (c.begin call).2 = .details tokens) :
    ∀ identifier saved, tokens ≠ .serverList (some identifier) saved := by
  rintro identifier saved rfl
  have asks : .ending (.serverList (some identifier) saved) ∈ (c.begin call).2.purposes := by
    rw [h]
    exact List.mem_cons_self
  rcases filling_begin asks with rfl | rfl <;> cases h

/-- After its first changes a call writes to the form only what its opening was to fill in. -/
theorem shownForm_made {c c' : Console} {o : Opening} {made : List Exchange} (h : Made c o made c')
    (plain : ∀ tokens, o = .details tokens → ∀ identifier saved, tokens ≠ .serverList (some identifier) saved) :
    c'.servers.shownForm =
      ((Loaded.ofExchanges? c.setup.endpoints o.fills? made).toList.map .filled).foldl Form.written
        c.servers.shownForm := by
  cases h with
  | settled => rfl
  | ending e reply =>
    have answered := shownForm_answer c e.operation (.ending e) reply
    cases e with
    | serverList load saved =>
      rw [Opening.fills?, show Ending.operation (.serverList load saved) = .servers from rfl, ofExchanges?_listing]
      exact answered
    | _ => exact answered
  | @written _ w reply h =>
    have answered := shownForm_answer c w.operation (.writing w) reply
    rw [answer, h] at answered
    exact answered
  | @relisted middle w first e reply h =>
    have answered := shownForm_answer c w.operation (.writing w) first
    rw [answer, h] at answered
    have listed := shownForm_answer middle e.operation (.ending e) reply
    rw [loaded?_of_not_filling, answered] at listed
    · exact listed
    · -- A listing that follows a change was not asked for by a form.
      rintro identifier saved rfl
      exact not_filling_answer (p := .writing w) (congrArg Prod.snd h)
  | @details middle last tokens first reply applications h k =>
    have concluded := shownForm_answer c tokens.operation (.ending tokens) first
    rw [answer, h, loaded?_of_not_filling (plain tokens rfl)] at concluded
    have came := shownForm_answer middle .applications .applications reply
    rw [answer, k, concluded] at came
    have offered := (Desk.keeps_offerApplications last applications).servers (by simp)
    exact (congrArg ServersView.shownForm offered).trans came

/-! ### Runs -/

namespace Desk
variable (reply : List Exchange → Rest.Request → Rest.Reply)

def writes (d : Desk (List Exchange)) (call : Call) : List FormWrite :=
  call.writes d.console.setup.endpoints (d.exchanged reply call)

/-- What calls made one after the other write to the form. -/
def writesAll (d : Desk (List Exchange)) : List Call → List FormWrite
  | [] => []
  | call :: calls => d.writes reply call ++ writesAll (d.call (prompt reply) call) calls

theorem shownForm_call (d : Desk (List Exchange)) (call : Call) :
    (d.call (prompt reply) call).console.servers.shownForm =
      (d.writes reply call).foldl Form.written d.console.servers.shownForm := by
  have setup := (sameSetup_begin d.console call).setup
  rw [shownForm_made (made_exchanged reply d call) fun _ => not_filling_details, fills?_begin, setup, shownForm_begin,
    writes, Call.writes, List.foldl_append]

theorem shownForm_calls : ∀ (calls : List Call) (d : Desk (List Exchange)),
    (calls.foldl (Desk.call (prompt reply)) d).console.servers.shownForm =
      (d.writesAll reply calls).foldl Form.written d.console.servers.shownForm
  | [], _ => rfl
  | call :: calls, d => by
    rw [List.foldl_cons, shownForm_calls calls, shownForm_call, writesAll, List.foldl_append]

/-- Of calls made one after the other, whatever the backend answers, each changes the form by what it writes and by
    nothing else: at once by opening it or typing into it, and later by the definition it was to fill in, if that is
    listed. After any run the form shows what was written last, and belongs to what it was last said to belong to. -/
theorem form_writtenLast (d : Desk (List Exchange)) :
    (∀ call, (d.console.begin call).1.servers.shownForm =
        call.write?.toList.foldl Form.written d.console.servers.shownForm ∧
      (d.call (prompt reply) call).console.servers.shownForm =
        (d.writes reply call).foldl Form.written d.console.servers.shownForm) ∧
    ∀ calls,
      let after := calls.foldl (Desk.call (prompt reply)) d
      let writes := d.writesAll reply calls
      after.console.servers.form = writes.getLast?.elim d.console.servers.form FormWrite.form ∧
        after.console.servers.editing =
          (writes.filterMap FormWrite.editing?).getLast?.getD d.console.servers.editing := by
  refine ⟨fun call => ⟨shownForm_begin d.console call, shownForm_call reply d call⟩, fun calls => ?_⟩
  have shown := (shownForm_calls reply calls d).trans (Form.foldl_written _ _)
  exact ⟨congrArg Prod.snd shown, congrArg Prod.fst shown⟩

-- What was typed is kept when the definitions are listed again, and when a save is turned down.
example :
    let draft : Wire.ServerForm := { Wire.ServerForm.blank with description := "unsaved" }
    let calls : List Call := [.mountServerForm (some "x"), .setServerForm draft, .refreshServers, .saveServer]
    let d := calls.foldl (Desk.call (prompt oneAtFirst)) (.ofConsole (.start .bare none) [])
    d.console.servers.shownForm = (some "x", draft) := by
  rfl

end Desk
end Console
end MfaConsole
