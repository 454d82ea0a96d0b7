import MfaConsole.Proofs.Console.Reached

/-! What happens at a desk, as the view of machines sees it: which calls and replies change it, and how. -/

namespace MfaConsole
namespace Console

namespace MachinesView

def beginTokens (v : MachinesView) : MachinesView := { v with loading := true }

/-- The view after the first changes of a call. -/
def called (v : MachinesView) : Call → MachinesView
  | .listMachines resolver => v.beginList (resolver.filter (· ≠ ""))
  | .showDetails machineId resolver => (v.select machineId resolver).beginTokens
  | .refreshTokens => if v.selected.isSome then v.beginTokens else v
  | .refreshMachines => if v.selected.isSome then v.beginTokens else v.beginList (v.resolver.filter (· ≠ ""))
  | _ => v

def answered (v : MachinesView) : Purpose → Rest.Reply → MachinesView
  | .ending (.machineList filter), reply => v.endList ((Rest.Operation.machines filter).outcome reply)
  | .ending (.tokenList filter), reply => v.endTokens ((Rest.Operation.tokens filter).outcome reply)
  | .writing w, reply => if w.isOfTokens && w.isAnswered reply && v.selected.isSome then v.beginTokens else v
  | _, _ => v

end MachinesView

variable (c : Console)

theorem machines_begin (call : Call) : (c.begin call).1.machines = c.machines.called call := by
  cases call with
  | mountServerList => rw [begin, mountServerList]; split <;> rfl
  | mountServerForm identifier => cases identifier <;> rfl
  | addServer form => rw [begin, addServer]; split <;> rfl
  | saveServer => rw [begin, saveServer]; split <;> rfl
  | refreshTokens =>
    rw [begin, refreshTokens, MachinesView.called]
    cases c.machines.selected <;> rfl
  | refreshMachines =>
    rw [begin, refreshMachines, MachinesView.called]
    cases c.machines.selected <;> rfl
  | mountClients path => rw [begin, mountClients]; split <;> rfl
  | resetPassword reset confirmation => rw [begin, resetPassword]; split <;> rfl
  | _ => rfl

theorem machines_refreshTokens :
    c.refreshTokens.1.machines = if c.machines.selected.isSome then c.machines.beginTokens else c.machines := by
  rw [refreshTokens]
  cases c.machines.selected <;> rfl

theorem machines_proceed {w : Writing} (hw : w.isOfTokens = true) (reply : Rest.Reply) :
    (c.proceed w reply).1.machines =
      if w.isAnswered reply && c.machines.selected.isSome then c.machines.beginTokens else c.machines := by
  obtain ⟨c', kept, ⟨ha, eq⟩ | ⟨ha, eq⟩⟩ := proceed_of_isOfTokens c hw reply
  · rw [eq, ha]
    exact kept.sameMachines
  · rw [eq, ha, machines_refreshTokens, kept.sameMachines]
    rfl

/-- A reply changes the view as it says, whatever it is for. -/
theorem machines_answer (p : Purpose) (reply : Rest.Reply) :
    (c.answer p reply).1.machines = c.machines.answered p reply := by
  have kept := (keeps_answer c p reply).machines
  cases p with
  | applications => exact kept (by simp [Purpose.view])
  | writing w =>
    rw [MachinesView.answered]
    cases hw : w.isOfTokens with
    | true => exact machines_proceed c hw reply
    | false => exact kept (by simp [Purpose.view, hw])
  | ending e =>
    cases e with
    | machineList filter =>
      have same := (Keeps.receive c (.machines filter) reply).sameMachines
      rw [MachinesView.answered, ← receive_snd c, ← same]
      rfl
    | tokenList filter =>
      have same := (Keeps.receive c (.tokens filter) reply).sameMachines
      rw [MachinesView.answered, ← receive_snd c, ← same]
      rfl
    | serverList | serverTest | clientList | recoveryCode | passwordReset =>
      exact kept (by simp [Purpose.view])

/-! ### What is asked for -/

/-- The tokens asked for are those of a machine that is chosen. -/
def AsksForChosen (v : MachinesView) (p : Purpose) : Prop :=
  ∀ filter, p = .ending (.tokenList filter) → ∃ machine, v.selected = some machine ∧
    filter = .ofMachine machine.1 machine.2

theorem asksForChosen_tokenList {v : MachinesView} (machine : String × String) (h : v.selected = some machine) :
    AsksForChosen v (.ending (.tokenList (.ofMachine machine.1 machine.2))) := fun filter hf => by
  cases hf
  exact ⟨machine, h, rfl⟩

/-- The tokens a call asks for are those of the machine chosen then. -/
theorem asksForChosen_begin {call : Call} {p : Purpose} (h : p ∈ (c.begin call).2.purposes) :
    AsksForChosen (c.begin call).1.machines p := by
  intro filter hp
  have own : call.view = .machines := (view_of_mem_purposes h .machines (hp ▸ rfl)).symm
  revert filter
  revert h
  cases call with
  | showDetails machineId resolver =>
    intro h
    rcases List.mem_cons.mp h with rfl | h
    · exact asksForChosen_tokenList (machineId, resolver) rfl
    · cases List.mem_singleton.mp h
      intro _ hp
      cases hp
  | refreshTokens =>
    rw [begin, refreshTokens]
    cases hs : c.machines.selected with
    | none => exact fun h => absurd h List.not_mem_nil
    | some machine =>
      intro h
      cases List.mem_singleton.mp h
      exact asksForChosen_tokenList _ hs
  | refreshMachines =>
    rw [begin, refreshMachines]
    cases hs : c.machines.selected with
    | none =>
      intro h
      cases List.mem_singleton.mp h
      intro _ hp
      cases hp
    | some machine =>
      intro h
      cases List.mem_singleton.mp h
      exact asksForChosen_tokenList _ hs
  | listMachines | attachToken | detachToken | saveTokenOptions =>
    intro h
    cases List.mem_singleton.mp h
    intro _ hp
    cases hp
  | _ => cases own

theorem asksForChosen_refreshTokens {e : Ending} (h : c.refreshTokens.2 = some e) :
    AsksForChosen c.refreshTokens.1.machines (.ending e) := by
  revert h
  rw [refreshTokens]
  split
  · intro h
    cases h
  · next hs =>
    intro h
    cases h
    exact asksForChosen_tokenList _ hs

theorem asksForChosen_answer {p : Purpose} {reply : Rest.Reply} {e : Ending} (h : (c.answer p reply).2 = some e) :
    AsksForChosen (c.answer p reply).1.machines (.ending e) := by
  cases p with
  | ending | applications => cases h
  | writing w =>
    cases hw : w.isOfTokens with
    | true =>
      rw [answer] at h ⊢
      obtain ⟨c', -, ⟨-, eq⟩ | ⟨-, eq⟩⟩ := proceed_of_isOfTokens c hw reply
      · rw [eq] at h
        cases h
      · rw [eq] at h ⊢
        exact asksForChosen_refreshTokens c' h
    | false =>
      intro filter hp
      have own := view_answer h
      rw [hp, Purpose.view, Purpose.view, hw] at own
      cases own

end Console
end MfaConsole
