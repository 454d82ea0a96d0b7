import MfaConsole.Proofs.Console.Exchanges
import MfaConsole.Proofs.Console.MachinesEffect
import MfaConsole.Proofs.Wire.ReadBack

/-! What a change of the tokens of machines sends, and what is shown after it. The change goes to the machine it names,
    or else to the one chosen. If the backend answered it the tokens of the chosen machine are listed, once, and what
    the listing brought is shown; nothing else of the view changes. -/

namespace MfaConsole

/-! ### Listings of tokens -/

namespace Wire

/-- Tokens on a page, which may say how many there are in all. -/
def tokensPage (tokens : Json) (count : Option UInt64) : Json :=
  .object (memberIfSome "count" (fun n => .integer n.toNat) count ++ [("tokens", tokens)])

/-- Tokens are read as the same list whether they stand by themselves or on a page. -/
theorem tokens_read_tokensPage (items : List Json) (count : Option UInt64) :
    (TokenPage.read (tokensPage (.array items) count)).map TokenPage.tokens =
      (TokenPage.read (.array items)).map TokenPage.tokens := by
  let ms := memberIfSome "count" (fun n : UInt64 => .integer n.toNat) count ++ [("tokens", Json.array items)]
  have tokensFound : ms.lookup "tokens" = some (.array items) := by
    cases count <;> rfl
  have countFound : (ms.lookup "count").getD (.integer (0 : UInt64).toNat) = .integer (count.getD 0).toNat := by
    cases count <;> rfl
  -- An object is no list of tokens, so it is read as a page.
  have paged : TokenPage.read (tokensPage (.array items) count) = TokenPage.readPage (.object ms) := rfl
  rw [paged, TokenPage.readPage, Fields.required_named, Fields.withDefault_count, tokensFound, countFound,
    uint64_integer, Option.bind_some, TokenPage.read]
  cases listOf AttachedToken.read (.array items) <;> rfl

end Wire

namespace Console

/-! ### Changes -/

/-- A change of the tokens attached to machines. -/
inductive TokenChange where
  | attach (a : Wire.Attachment)
  | detach (key : Wire.TokenKey)
  | saveOptions (u : Wire.OptionUpdate)

namespace TokenChange

def call : TokenChange → Call
  | attach a => .attachToken a
  | detach key => .detachToken key
  | saveOptions u => .saveTokenOptions u

/-- What a change sends. Where it names no machine or no resolver, those of the machine chosen stand in their place. -/
def request (e : Rest.Endpoints) (chosen : Option (String × String)) : TokenChange → Rest.Request
  | attach a => .post e.machineTokens (Wire.Attachment.write
      { a with machineId := a.machineId.or (chosen.map Prod.fst), resolver := a.resolver.or (chosen.map Prod.snd) })
  | detach key => .delete (e.machineToken key)
  | saveOptions u => .post e.machineTokenOptions (Wire.OptionUpdate.write
      { u with machineId := u.machineId.or (chosen.map Prod.fst), resolver := u.resolver.or (chosen.map Prod.snd) })

def writing (chosen : Option (String × String)) : TokenChange → Writing
  | attach a => .attach (chosen.elim a fun m => a.fillMachine m.1 m.2)
  | detach key => .detach key
  | saveOptions u => .saveOptions (chosen.elim u fun m => u.fillMachine m.1 m.2)

theorem begin_call (c : Console) (change : TokenChange) :
    c.begin change.call = (c, .writing (change.writing c.machines.selected)) := by
  cases change <;> rfl

theorem isOfTokens_writing (chosen : Option (String × String)) (change : TokenChange) :
    (change.writing chosen).isOfTokens = true := by
  cases change <;> rfl

theorem request_writing (e : Rest.Endpoints) (chosen : Option (String × String)) (change : TokenChange) :
    (change.writing chosen).operation.request e = change.request e chosen := by
  cases change with
  | detach key => rfl
  | attach a =>
    cases chosen with
    | none => simp [writing, Writing.operation, Rest.Operation.request, request]
    | some machine =>
      cases a with | mk _ _ machineId resolver _ => cases machineId <;> cases resolver <;> rfl
  | saveOptions u =>
    cases chosen with
    | none => simp [writing, Writing.operation, Rest.Operation.request, request]
    | some machine =>
      cases u with | mk _ _ machineId resolver _ _ => cases machineId <;> cases resolver <;> rfl

end TokenChange

/-! ### What follows a change -/

/-- The tokens shown after a listing: those it brought, and none if it had no value; those from before if it failed. -/
def tokensAfter (before : List Wire.AttachedToken) (reply : Rest.Reply) : List Wire.AttachedToken :=
  match Rest.judge Wire.TokenPage.read reply with
  | .ok e => e.value.elim [] Wire.TokenPage.tokens
  | .error _ => before

/-- The request that lists the tokens of a machine; what is empty of its name is left out. -/
def tokensRequest (c : Console) (machine : String × String) : Rest.Request :=
  { Rest.Request.get c.setup.endpoints.machineTokens
      ([("machineid", machine.1), ("resolver", machine.2)].filter (·.2 ≠ "")) with authorization := c.authorization }

/-- What is exchanged after a change that was replied to, and the view in the end: the tokens of the machine chosen are
    listed if the change was answered, and nothing is exchanged or changed if it was not, or if no machine is chosen. -/
inductive Relists (c : Console) (answer : Rest.Reply) : List Exchange → MachinesView → Prop
  | listed {machine : String × String} (answered : (Rest.judge Wire.anything answer).isOk = true)
      (chosen : c.machines.selected = some machine) (reply : Rest.Reply) :
      Relists c answer [⟨c.tokensRequest machine, reply⟩]
        { c.machines with loading := false, tokens := tokensAfter c.machines.tokens reply }
  | unlisted (h : (Rest.judge Wire.anything answer).isOk = false ∨ c.machines.selected = none) :
      Relists c answer [] c.machines

theorem isAnswered_of_isOfTokens {w : Writing} (hw : w.isOfTokens = true) (reply : Rest.Reply) :
    w.isAnswered reply = (Rest.judge Wire.anything reply).isOk := by
  cases w with
  | attach | detach | saveOptions => rfl
  | addServer | saveServer | deleteServer => cases hw

theorem endTokens_eq (v : MachinesView) (filter : Wire.TokenFilter) (reply : Rest.Reply) :
    v.endTokens ((Rest.Operation.tokens filter).outcome reply) =
      { v with loading := false, tokens := tokensAfter v.tokens reply } := by
  show v.endTokens (Rest.judge Wire.TokenPage.read reply) = _
  rw [tokensAfter]
  cases Rest.judge Wire.TokenPage.read reply <;> rfl

theorem asked_tokens (c : Console) (machine : String × String) :
    c.asked (.tokens (.ofMachine machine.1 machine.2)) = c.tokensRequest machine := by
  rw [asked, Rest.Operation.request, Wire.TokenFilter.query_ofMachine, tokensRequest]

theorem machines_listed (c : Console) (machine : String × String) (reply : Rest.Reply) :
    (((c.listTokens machine).1.dispatch (c.listTokens machine).2.operation).1.conclude (c.listTokens machine).2
        reply).machines =
      { c.machines with loading := false, tokens := tokensAfter c.machines.tokens reply } :=
  (machines_answer _ (.ending (.tokenList (.ofMachine machine.1 machine.2))) reply).trans
    (endTokens_eq c.machines.beginTokens _ reply)

/-- Once a change was replied to, the tokens of the machine chosen are asked for, or nothing is. -/
theorem follows_change {c c' : Console} {w : Writing} (hw : w.isOfTokens = true) {answer : Rest.Reply}
    {next : Option Ending} (h : (c.dispatch w.operation).1.proceed w answer = (c', next)) :
    (next = none ∧ c'.machines = c.machines ∧
      ((Rest.judge Wire.anything answer).isOk = false ∨ c.machines.selected = none)) ∨
    ∃ machine before, next = some (listTokens before machine).2 ∧ c' = (listTokens before machine).1 ∧
      before.machines = c.machines ∧ (Rest.judge Wire.anything answer).isOk = true ∧
      c.machines.selected = some machine := by
  obtain ⟨before, kept, eq⟩ := proceed_of_isOfTokens (c.dispatch w.operation).1 hw answer
  have same : before.machines = c.machines := kept.sameMachines
  rw [isAnswered_of_isOfTokens hw, h] at eq
  obtain ⟨refused, eq⟩ | ⟨ok, eq⟩ := eq
  · cases eq
    exact Or.inl ⟨rfl, same, Or.inl refused⟩
  · rw [refreshTokens] at eq
    cases chosen : before.machines.selected with
    | none =>
      rw [chosen] at eq
      cases eq
      exact Or.inl ⟨rfl, same, Or.inr (same ▸ chosen)⟩
    | some machine =>
      rw [chosen] at eq
      cases eq
      exact Or.inr ⟨machine, before, rfl, rfl, same, ok, same ▸ chosen⟩

theorem relists_change {c c' : Console} {w : Writing} {made : List Exchange} (hw : w.isOfTokens = true)
    (h : Made c (.writing w) made c') : ∃ answer more, made = ⟨c.asked w.operation, answer⟩ :: more ∧
      Relists c answer more c'.machines := by
  cases h with
  | @written _ _ answer h =>
    obtain ⟨-, same, unlisted⟩ | ⟨_, _, eq, -⟩ := follows_change hw h
    · refine ⟨answer, [], rfl, ?_⟩
      rw [same]
      exact .unlisted unlisted
    · cases eq
  | @relisted middle _ answer _ reply h =>
    obtain ⟨eq, -⟩ | ⟨machine, before, listing, eq, same, ok, chosen⟩ := follows_change hw h
    · cases eq
    · cases listing
      have asked : middle.asked (.tokens (.ofMachine machine.1 machine.2)) = c.tokensRequest machine :=
        ((SameSetup.of_proceed h).asked _).trans (asked_tokens c machine)
      have shown := machines_listed before machine reply
      rw [← eq, same] at shown
      have relists := Relists.listed ok chosen reply
      rw [← asked, ← shown] at relists
      exact ⟨answer, [_], rfl, relists⟩

/-- Whatever the backend answers, a change of the tokens of machines is sent once. If it was answered and a machine is
    chosen, the tokens of that machine are listed after it, once, and those that the listing brought are shown; if not,
    nothing more is sent. Nothing else of the view changes, and a page of tokens is as good as a list of them. -/
theorem tokenChange_relists :
    (∀ (reply : List Exchange → Rest.Request → Rest.Reply) (d : Desk (List Exchange)) (change : TokenChange),
      let c := d.console
      let after := d.call (prompt reply) change.call
      ∃ answer made,
        after.backend = d.backend ++ ⟨{ change.request c.setup.endpoints c.machines.selected with
          authorization := c.authorization }, answer⟩ :: made ∧
        Relists c answer made after.console.machines) ∧
    ∀ (items : List Json) (count : Option UInt64),
      (Wire.TokenPage.read (Wire.tokensPage (.array items) count)).map Wire.TokenPage.tokens =
        (Wire.TokenPage.read (.array items)).map Wire.TokenPage.tokens := by
  refine ⟨fun reply d change => ?_, Wire.tokens_read_tokensPage⟩
  obtain ⟨made, backend, through⟩ := Desk.made_call reply d change.call
  rw [change.begin_call] at through
  obtain ⟨answer, more, rfl, relists⟩ := relists_change (change.isOfTokens_writing _) through
  rw [asked, change.request_writing] at backend
  exact ⟨answer, more, backend, relists⟩

end Console
end MfaConsole
