import MfaConsole.Console.Pending

/-! The recovery of a lost password: a code is asked for by mail, then a new password is set with it. -/

namespace MfaConsole
namespace Console

def codeSentMessage : String := "The recovery code has been sent to your email address."

def passwordResetMessage : String := "Your password has been reset."

def mismatchMessage : String := "The passwords do not match."

def loginUrl : String := "/"

variable (c : Console)

def beginRecovery : Console := c.changeRecovery fun _ => { phase := .submitting, error := none }

def endRecovery (phase : RecoveryPhase) : Console := c.changeRecovery fun v => { v with phase }

def requestCode (r : Wire.CodeRequest) : Console × Opening := (c.beginRecovery, .ending (.recoveryCode r))

/-- A new password is set; it has to be confirmed by typing it twice. -/
def resetPassword (r : Wire.PasswordReset) (confirmation : String) : Console × Opening :=
  if r.password = confirmation then (c.beginRecovery, .ending (.passwordReset r))
  else (c.changeRecovery fun v => { v with error := some (c.translate mismatchMessage) }, .settled)

def confirmed : Outcome Json → Bool
  | .ok e => e.isTrue
  | .error _ => false

def codeRequested (r : Wire.CodeRequest) (reply : Rest.Reply) : Console :=
  let (c, outcome) := c.receive (.requestCode r) reply
  if confirmed outcome then (c.inform codeSentMessage).endRecovery .codeSent else c.endRecovery .idle

def passwordSet (r : Wire.PasswordReset) (reply : Rest.Reply) : Console :=
  let (c, outcome) := c.receive (.resetPassword r) reply
  if confirmed outcome then ((c.inform passwordResetMessage).go loginUrl).endRecovery .passwordReset
  else c.endRecovery .idle

end Console
end MfaConsole
