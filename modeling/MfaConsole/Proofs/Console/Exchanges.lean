import MfaConsole.Console.Desk
import MfaConsole.Proofs.Console.Effect

/-! What a call exchanges with a backend that answers at once, whatever it answers. Such a backend carries every call
    through to its end, so that calls made one after the other do not get in each other's way. -/

namespace MfaConsole
namespace Console

/-! ### What stays the same -/

/-- The same console but for what happens in it: requests go to the same places with the same authorization. -/
structure SameSetup (c c' : Console) : Prop where
  setup : c'.setup = c.setup
  authorization : c'.authorization = c.authorization

namespace SameSetup
variable {a b c : Console}

theorem refl (c : Console) : SameSetup c c := ⟨rfl, rfl⟩

theorem trans (h : SameSetup a b) (k : SameSetup b c) : SameSetup a c :=
  ⟨k.setup.trans h.setup, k.authorization.trans h.authorization⟩

theorem goState (c : Console) (name : String) (params : List (String × String)) :
    SameSetup c (c.goState name params) := by
  rw [Console.goState]
  split
  · exact ⟨rfl, rfl⟩
  · exact refl c

theorem handleFailure (c : Console) (f : Rest.Failure) : SameSetup c (c.handleFailure f) := by
  rw [Console.handleFailure]
  split
  · split <;> exact ⟨rfl, rfl⟩
  · exact ⟨rfl, rfl⟩

theorem receive (c : Console) (o : Rest.Operation) (reply : Rest.Reply) : SameSetup c (c.receive o reply).1 := by
  rw [Console.receive]
  split
  · exact refl c
  · next f _ => exact trans (b := c.happen (.failure f)) ⟨rfl, rfl⟩ (handleFailure _ f)

theorem of_receive {o : Rest.Operation} {reply : Rest.Reply} {outcome : Outcome o.Payload}
    (h : a.receive o reply = (b, outcome)) : SameSetup a b := by
  have := receive a o reply
  rwa [h] at this

theorem refreshTokens (c : Console) : SameSetup c c.refreshTokens.1 := by
  rw [Console.refreshTokens]
  split <;> exact ⟨rfl, rfl⟩

theorem confirmSave (c : Console) (saved : Wire.Envelope Json) : SameSetup c (c.confirmSave saved) := by
  rw [Console.confirmSave]
  split
  · exact trans (b := (c.changeServers fun v => { v with fresh := true }).inform savedMessage) ⟨rfl, rfl⟩
      (goState _ _ _)
  · cases saved.errorMessage <;> exact ⟨rfl, rfl⟩

end SameSetup

theorem sameSetup_begin (c : Console) (call : Call) : SameSetup c (c.begin call).1 := by
  cases call with
  | mountServerList => rw [begin, mountServerList]; split <;> exact ⟨rfl, rfl⟩
  | mountServerForm identifier => cases identifier <;> exact ⟨rfl, rfl⟩
  | addServer form => rw [begin, addServer]; split <;> exact ⟨rfl, rfl⟩
  | saveServer => rw [begin, saveServer]; split <;> exact ⟨rfl, rfl⟩
  | refreshTokens =>
    have := SameSetup.refreshTokens c
    rw [begin]
    split <;> rename_i h <;> rw [h] at this <;> exact this
  | refreshMachines => rw [begin, refreshMachines]; split <;> exact ⟨rfl, rfl⟩
  | mountClients path => rw [begin, mountClients]; split <;> exact ⟨rfl, rfl⟩
  | resetPassword reset confirmation => rw [begin, resetPassword]; split <;> exact ⟨rfl, rfl⟩
  | _ => exact ⟨rfl, rfl⟩

theorem sameSetup_conclude (c : Console) (e : Ending) (reply : Rest.Reply) : SameSetup c (c.conclude e reply) := by
  cases e with
  | serverList load saved =>
    rw [conclude, serversListed]
    rcases h : c.receive .servers reply with ⟨c', outcome⟩
    have listed : SameSetup c (c'.changeServers (.endList load outcome)) := (SameSetup.of_receive h).trans ⟨rfl, rfl⟩
    cases saved with
    | none => exact listed
    | some e => exact listed.trans (.confirmSave _ e)
  | serverTest test =>
    rw [conclude, serverTested]
    split
    · next h => exact .of_receive h
    · next h =>
      refine (SameSetup.of_receive h).trans ?_
      split <;> exact ⟨rfl, rfl⟩
  | machineList filter => exact (SameSetup.receive c _ reply).trans ⟨rfl, rfl⟩
  | tokenList filter => exact (SameSetup.receive c _ reply).trans ⟨rfl, rfl⟩
  | clientList => exact (SameSetup.receive c _ reply).trans ⟨rfl, rfl⟩
  | recoveryCode request =>
    refine (SameSetup.receive c (.requestCode request) reply).trans ?_
    rw [conclude, codeRequested]
    dsimp only
    split <;> exact ⟨rfl, rfl⟩
  | passwordReset reset =>
    refine (SameSetup.receive c (.resetPassword reset) reply).trans ?_
    rw [conclude, passwordSet]
    dsimp only
    split <;> exact ⟨rfl, rfl⟩

theorem sameSetup_tokensWritten (c : Console) (o : Rest.Operation) (message : String) (reply : Rest.Reply) :
    SameSetup c (c.tokensWritten o message reply).1 := by
  rw [tokensWritten]
  split
  · next h => exact .of_receive h
  · next e h =>
    refine ((SameSetup.of_receive h).trans ?_).trans (.refreshTokens _)
    split
    · exact ⟨rfl, rfl⟩
    · cases e.errorMessage <;> exact ⟨rfl, rfl⟩

theorem sameSetup_proceed (c : Console) (w : Writing) (reply : Rest.Reply) : SameSetup c (c.proceed w reply).1 := by
  cases w with
  | attach | detach | saveOptions => exact sameSetup_tokensWritten c _ _ reply
  | addServer form =>
    rw [proceed, serverAdded]
    split <;> next h => exact (SameSetup.of_receive h).trans ⟨rfl, rfl⟩
  | saveServer form =>
    rw [proceed, serverSaved]
    split <;> next h => exact (SameSetup.of_receive h).trans ⟨rfl, rfl⟩
  | deleteServer identifier =>
    rw [proceed, serverDeleted]
    split <;> next h => exact (SameSetup.of_receive h).trans ⟨rfl, rfl⟩

theorem sameSetup_applicationsListed (c : Console) (reply : Rest.Reply) :
    SameSetup c (c.applicationsListed reply).1 := by
  rw [applicationsListed]
  split <;> next h => exact .of_receive h

theorem sameSetup_offerApplications (c : Console) (applications : Option (KeyMap Json)) :
    SameSetup c (c.offerApplications applications) := by
  cases applications <;> exact ⟨rfl, rfl⟩

/-- What is done with the reply to what was written leaves it as it is when that was sent. -/
theorem SameSetup.of_proceed {c c' : Console} {w : Writing} {reply : Rest.Reply} {next : Option Ending}
    (h : (c.dispatch w.operation).1.proceed w reply = (c', next)) : SameSetup c c' := by
  have kept := sameSetup_proceed (c.dispatch w.operation).1 w reply
  rw [h] at kept
  exact trans (b := (c.dispatch w.operation).1) ⟨rfl, rfl⟩ kept

/-! ### Exchanges -/

/-- A request and the reply to it. -/
structure Exchange where
  request : Rest.Request
  reply : Rest.Reply

/-- The backend that answers at once, and notes it. What it answers may depend on all that was exchanged before. -/
def prompt (reply : List Exchange → Rest.Request → Rest.Reply) : Backend (List Exchange) := fun made _ r =>
  (made ++ [⟨r, reply made r⟩], some (reply made r))

/-- The request that an operation sends. -/
def asked (c : Console) (o : Rest.Operation) : Rest.Request :=
  { o.request c.setup.endpoints with authorization := c.authorization }

theorem SameSetup.asked {c c' : Console} (h : SameSetup c c') (o : Rest.Operation) : c'.asked o = c.asked o := by
  rw [Console.asked, Console.asked, h.setup, h.authorization]

/-- What a call exchanges after its first changes, and the console after it. -/
inductive Made : Console → Opening → List Exchange → Console → Prop where
  | settled (c : Console) : Made c .settled [] c
  | ending (c : Console) (e : Ending) (reply : Rest.Reply) :
      Made c (.ending e) [⟨c.asked e.operation, reply⟩] ((c.dispatch e.operation).1.conclude e reply)
  | written {c c' : Console} {w : Writing} {reply : Rest.Reply}
      (h : (c.dispatch w.operation).1.proceed w reply = (c', none)) :
      Made c (.writing w) [⟨c.asked w.operation, reply⟩] c'
  | relisted {c c' : Console} {w : Writing} {answer : Rest.Reply} {e : Ending} (reply : Rest.Reply)
      (h : (c.dispatch w.operation).1.proceed w answer = (c', some e)) :
      Made c (.writing w) [⟨c.asked w.operation, answer⟩, ⟨c'.asked e.operation, reply⟩]
        ((c'.dispatch e.operation).1.conclude e reply)
  | details {c c' c'' : Console} {tokens : Ending} {answer reply : Rest.Reply} {applications : Option (KeyMap Json)}
      (h : (c.dispatch tokens.operation).1.conclude tokens answer = c')
      (k : (c'.dispatch .applications).1.applicationsListed reply = (c'', applications)) :
      Made c (.details tokens) [⟨c.asked tokens.operation, answer⟩, ⟨c'.asked .applications, reply⟩]
        (c''.offerApplications applications)

namespace Made
variable {c c' : Console} {o : Opening} {made : List Exchange}

theorem sameSetup (h : Made c o made c') : SameSetup c c' := by
  cases h with
  | settled => exact .refl c
  | ending e reply => exact SameSetup.trans (b := (c.dispatch e.operation).1) ⟨rfl, rfl⟩ (sameSetup_conclude _ e reply)
  | written h => exact .of_proceed h
  | @relisted middle _ _ e reply h =>
    have sent : SameSetup c (middle.dispatch e.operation).1 := (SameSetup.of_proceed h).trans ⟨rfl, rfl⟩
    exact sent.trans (sameSetup_conclude _ e reply)
  | @details middle last tokens answer reply applications h k =>
    have concluded := sameSetup_conclude (c.dispatch tokens.operation).1 tokens answer
    have listed := sameSetup_applicationsListed (middle.dispatch .applications).1 reply
    rw [h] at concluded
    rw [k] at listed
    have before : SameSetup c middle := SameSetup.trans (b := (c.dispatch tokens.operation).1) ⟨rfl, rfl⟩ concluded
    have sent : SameSetup c (middle.dispatch .applications).1 := before.trans ⟨rfl, rfl⟩
    exact (sent.trans listed).trans (sameSetup_offerApplications last applications)

end Made

namespace Desk
variable (reply : List Exchange → Rest.Request → Rest.Reply)

/-- An operation goes out, and its answer is there at once. -/
def afterSend (d : Desk (List Exchange)) (o : Rest.Operation) : Desk (List Exchange) :=
  { d with console := (d.console.dispatch o).1,
           backend := d.backend ++ [⟨d.console.asked o, reply d.backend (d.console.asked o)⟩], sent := d.sent + 1 }

theorem send_prompt (d : Desk (List Exchange)) (o : Rest.Operation) : d.send (prompt reply) o =
    (d.afterSend reply o, d.sent, some (reply d.backend (d.console.asked o))) := rfl

/-- What is written is answered, and a listing that follows it is answered too. -/
theorem made_write (d : Desk (List Exchange)) (w : Writing) : ∃ made,
    (d.write (prompt reply) w).1.backend = d.backend ++ made ∧
      Made d.console (.writing w) made (d.write (prompt reply) w).1.console := by
  rw [write, send_prompt]
  dsimp only
  rw [afterWriting]
  rcases h : (d.afterSend reply w.operation).console.proceed w (reply d.backend (d.console.asked w.operation)) with
    ⟨c, _ | e⟩
  · exact ⟨_, rfl, .written h⟩
  · refine ⟨[_, _], ?_, .relisted _ h⟩
    exact List.append_assoc d.backend [_] [_]

/-- The tokens of a machine and the applications are answered, the tokens first. -/
theorem made_askDetails (d : Desk (List Exchange)) (tokens : Ending) : ∃ made,
    (d.askDetails (prompt reply) tokens).1.backend = d.backend ++ made ∧
      Made d.console (.details tokens) made (d.askDetails (prompt reply) tokens).1.console := by
  refine ⟨[_, _], ?_, .details rfl rfl⟩
  exact List.append_assoc d.backend [_] [_]

/-- A call goes through to its end, and the backend notes what it exchanges. -/
theorem made_call (d : Desk (List Exchange)) (call : Call) : ∃ made,
    (d.call (prompt reply) call).backend = d.backend ++ made ∧
      Made (d.console.begin call).1 (d.console.begin call).2 made (d.call (prompt reply) call).console := by
  rw [Desk.call]
  rcases d.console.begin call with ⟨c, _ | e | w | tokens⟩
  · exact ⟨[], (List.append_nil _).symm, .settled c⟩
  · exact ⟨_, rfl, .ending c e _⟩
  · exact made_write reply { d with console := c } w
  · exact made_askDetails reply { d with console := c } tokens

/-- What a call exchanges at a desk. -/
def exchanged (d : Desk (List Exchange)) (call : Call) : List Exchange :=
  (d.call (prompt reply) call).backend.drop d.backend.length

theorem made_exchanged (d : Desk (List Exchange)) (call : Call) :
    Made (d.console.begin call).1 (d.console.begin call).2 (d.exchanged reply call)
      (d.call (prompt reply) call).console := by
  obtain ⟨made, backend, through⟩ := made_call reply d call
  rwa [exchanged, backend, List.drop_left]

end Desk
end Console
end MfaConsole
