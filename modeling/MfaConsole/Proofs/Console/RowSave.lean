import MfaConsole.Proofs.Console.Reached
import MfaConsole.Proofs.Wire.OptionBody
import MfaConsole.Proofs.Wire.OptionText

/-! What is sent when the row of a token is saved, or a token is attached. The options typed into the row stand in one
    object with the members that name the attachment: they come back from their text only if they are plain, and they
    leave those members alone only if they have other names. -/

namespace MfaConsole
namespace Console

/-- A call sends one request, which posts a body. -/
def Posts (d : Desk Unit) (call : Call) (url : String) (body : Json) : Prop :=
  (d.call silent call).console.record =
    d.console.record ++ [.request { Rest.Request.post url body with authorization := d.console.authorization }]

theorem posts_saveTokenOptions (d : Desk Unit) (u : Wire.OptionUpdate) :
    Posts d (.saveTokenOptions u) d.console.setup.endpoints.machineTokenOptions
      (d.console.machines.selected.elim u fun m => u.fillMachine m.1 m.2).write := by
  unfold Posts
  rw [Desk.console_call]
  rfl

theorem posts_attachToken (d : Desk Unit) (a : Wire.Attachment) :
    Posts d (.attachToken a) d.console.setup.endpoints.machineTokens
      (d.console.machines.selected.elim a fun m => a.fillMachine m.1 m.2).write := by
  unfold Posts
  rw [Desk.console_call]
  rfl

/-! ### The attachment named -/

theorem carries_ofRow_iff (t : Wire.AttachedToken) (text : String) (machine : String × String) :
    Wire.Carries ((Wire.OptionUpdate.ofRow t text).fillMachine machine.1 machine.2).write (t.keyOn machine) ↔
      Wire.Agrees (Wire.OptionText.parse text) (t.keyOn machine) :=
  Wire.carries_withOptions_iff (by simp [Wire.memberIfSome, Wire.OptionUpdate.ofRow, Wire.OptionUpdate.fillMachine])
    (fun _ hm => hm) _

/-- Where a machine is chosen, saving a row posts the key of the row on that machine exactly if no option typed into it
    has the name of a member of the key and another value; as its number is no text, no option may have the name of
    that. Attaching a token posts what names the attachment under the same condition. -/
theorem key_posted_iff (d : Desk Unit) :
    (∀ machine, d.console.machines.selected = some machine → ∀ (t : Wire.AttachedToken) (text : String), ∃ body,
      Posts d (.saveTokenOptions (.ofRow t text)) d.console.setup.endpoints.machineTokenOptions body ∧
        (Wire.Carries body (t.keyOn machine) ↔ Wire.Agrees (Wire.OptionText.parse text) (t.keyOn machine))) ∧
    ∀ a : Wire.Attachment, ∃ body,
      Posts d (.attachToken a) d.console.setup.endpoints.machineTokens body ∧
        (Wire.Carries body a.key ↔ Wire.Agrees a.options a.key) := by
  constructor
  · intro machine chosen t text
    have posted := posts_saveTokenOptions d (.ofRow t text)
    rw [chosen] at posted
    exact ⟨_, posted, carries_ofRow_iff t text machine⟩
  · intro a
    refine ⟨_, posts_attachToken d a, ?_⟩
    cases d.console.machines.selected with
    | none => exact a.carries_write_iff
    | some machine => exact (a.fillMachine machine.1 machine.2).carries_write_iff

def sshToken (options : KeyMap Json) : Wire.AttachedToken :=
  { id := 7, serial := "S", application := "ssh", machineId := none, resolver := none, hostname := none,
    tokenType := none, options }

/-- The details of a machine are open. -/
def detailsOpen : Desk Unit := Desk.call silent (.ofConsole (.start .bare none) ()) (.showDetails "A" "r")

/-- An option that repeats the serial of its row does no harm. -/
theorem key_posted_repeated : detailsOpen.console.machines.selected = some ("A", "r") ∧ ∃ body,
    Posts detailsOpen (.saveTokenOptions (.ofRow (sshToken .empty) "user=root, serial=S"))
      detailsOpen.console.setup.endpoints.machineTokenOptions body ∧
      Wire.Carries body ((sshToken .empty).keyOn ("A", "r")) := by
  obtain ⟨body, posted, carries⟩ :=
    (key_posted_iff detailsOpen).1 ("A", "r") rfl (sshToken .empty) "user=root, serial=S"
  refine ⟨rfl, body, posted, carries.mpr fun m hm v hv => ?_⟩
  have read : (Wire.OptionText.parse "user=root, serial=S").entries = [("serial", "S"), ("user", "root")] := by decide
  rw [KeyMap.get?, read] at hv
  simp only [Wire.AttachedToken.keyOn, List.mem_cons, List.not_mem_nil, or_false] at hm
  rcases hm with rfl | rfl | rfl | rfl | rfl
  · exact congrArg Json.string (Option.some.inj hv)
  all_goals cases hv

/-- An option of another serial redirects the save to the attachment of that token. -/
theorem key_not_posted : detailsOpen.console.machines.selected = some ("A", "r") ∧ ∃ body,
    Posts detailsOpen (.saveTokenOptions (.ofRow (sshToken .empty) "serial=T"))
      detailsOpen.console.setup.endpoints.machineTokenOptions body ∧
      body.get? "serial" = some (.string "T") ∧ ¬Wire.Carries body ((sshToken .empty).keyOn ("A", "r")) := by
  have redirected := posts_saveTokenOptions detailsOpen (.ofRow (sshToken .empty) "serial=T")
  refine ⟨rfl, _, redirected, rfl, fun carries => ?_⟩
  have kept := (carries_ofRow_iff (sshToken .empty) "serial=T" ("A", "r")).mp carries
  have found : (Wire.OptionText.parse "serial=T").get? "serial" = some "T" := by decide
  have same : Json.string "S" = .string "T" := kept _ List.mem_cons_self "T" found
  exact absurd (Json.string.inj same) (by decide)

/-! ### The options kept -/

/-- The options of a token, all of them texts, come back from the text of its row exactly if they are plain, and saving
    the row unedited posts them unchanged under the same condition. -/
theorem options_kept_iff (options : KeyMap String) :
    (Wire.OptionText.parse (Wire.OptionText.format (options.mapValues .string)) = options ↔
      ∀ e ∈ options.entries, Wire.OptionText.IsPlain e) ∧
    ∀ (d : Desk Unit) (t : Wire.AttachedToken), t.options = options.mapValues .string → ∃ u : Wire.OptionUpdate,
      Posts d (.saveTokenOptions (.ofRow t (Wire.OptionText.format t.options)))
        d.console.setup.endpoints.machineTokenOptions u.write ∧
      (u.options = options ↔ ∀ e ∈ options.entries, Wire.OptionText.IsPlain e) := by
  have comes := Wire.OptionText.parse_format_eq_iff options
  refine ⟨comes, fun d t own => ⟨_, posts_saveTokenOptions d _, ?_⟩⟩
  rw [← comes, ← own]
  cases d.console.machines.selected <;> rfl

def userAndCount : KeyMap String := .ofList [("user", "root=x"), ("count", "10")]

/-- An equals sign in a value does no harm, as the key ends at the first one. -/
theorem options_kept_equals : ∃ u : Wire.OptionUpdate,
    Posts detailsOpen (.saveTokenOptions (.ofRow (sshToken (userAndCount.mapValues .string)) "count=10, user=root=x"))
      detailsOpen.console.setup.endpoints.machineTokenOptions u.write ∧ u.options = userAndCount := by
  obtain ⟨-, saves⟩ := options_kept_iff userAndCount
  obtain ⟨u, posted, kept⟩ := saves detailsOpen (sshToken (userAndCount.mapValues .string)) rfl
  have shown : Wire.OptionText.format (userAndCount.mapValues .string) = "count=10, user=root=x" := by decide
  rw [← shown]
  exact ⟨u, posted, kept.mpr (by decide)⟩

/-- The text of a value with a comma in it is cut there, and what follows the comma is lost. -/
theorem options_not_kept : (Wire.OptionText.parse
    (Wire.OptionText.format ((KeyMap.ofList [("a", "1,2")]).mapValues .string))).entries = [("a", "1")] ∧
    Wire.OptionText.parse (Wire.OptionText.format ((KeyMap.ofList [("a", "1,2")]).mapValues .string)) ≠
      .ofList [("a", "1,2")] := by
  constructor
  · decide
  · intro h
    exact absurd (congrArg KeyMap.entries h) (by decide)

end Console
end MfaConsole
