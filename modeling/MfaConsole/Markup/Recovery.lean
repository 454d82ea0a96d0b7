import MfaConsole.Console.Basic
import MfaConsole.Markup.Tree

/-! The pages for a lost password: one asks for a code, the other sets a new password. -/

namespace MfaConsole
namespace Markup

/-- A button that sends its form and is disabled while a request is under way. -/
def submitOnce (phase : Console.RecoveryPhase) (label : String) : Markup :=
  textNode "button" (("type", "submit") :: if phase = .submitting then [("disabled", .flag)] else []) label

def sentNote (phase : Console.RecoveryPhase) : List Markup :=
  if phase = .codeSent then [textNode "p" [("class", "recovery__sent")] "Check your mailbox for the recovery link."]
  else []

def codeForm (c : Console) : Markup :=
  node "section" [("class", "recovery")]
    ([textNode "h2" [] "Recover your password",
      node "form" []
        [field "text" "Username", field "text" "Realm", field "email" "Email",
         submitOnce c.recovery.phase "Send recovery code"]] ++ sentNote c.recovery.phase)

def formError (error : Option String) : List Markup :=
  error.toList.map (textNode "p" [("class", "form-error")])

def passwordForm (c : Console) : Markup :=
  node "section" [("class", "recovery")]
    ([textNode "h2" [] "Set a new password",
      node "form" []
        [field "password" "New password", field "password" "Repeat password",
         submitOnce c.recovery.phase "Reset password"]] ++ formError c.recovery.error)

end Markup
end MfaConsole
