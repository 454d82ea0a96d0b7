import MfaConsole.Text.Blank
import MfaConsole.Wire.Reader

/-! Requests of a user who has lost the password: for a recovery code by mail, and for a new password. -/

namespace MfaConsole
namespace Wire

/-- A request for a recovery code by mail. -/
structure CodeRequest where
  user : String
  realm : Option String
  email : String
  deriving DecidableEq

/-- A new password with the code that permits it. -/
structure PasswordReset where
  user : String
  realm : Option String
  recoveryCode : String
  password : String
  deriving DecidableEq

/-- What was typed into a field, without blanks at its ends; none if there is nothing else. -/
def typed? (s : String) : Option String :=
  let t := Text.trim s
  if t = "" then none else some t

namespace CodeRequest

/-- The request of a filled form; user and mail address are needed. -/
def ofForm? (user realm email : String) : Option CodeRequest := do
  let user ← typed? user
  let email ← typed? email
  pure { user, realm := typed? realm, email }

def read : Reader CodeRequest := fun v => do
  let f ← Fields.of? 3 v
  let user ← f.required 0 "user" text
  let realm ← f.optional 1 "realm" text
  let email ← f.required 2 "email" text
  pure { user, realm, email }

/-- The request as JSON; a realm that is not given is left out. -/
def write (r : CodeRequest) : Json :=
  .object ([("email", .string r.email)] ++ memberIfSome "realm" .string r.realm ++ [("user", .string r.user)])

end CodeRequest

namespace PasswordReset

def read : Reader PasswordReset := fun v => do
  let f ← Fields.of? 4 v
  let user ← f.required 0 "user" text
  let realm ← f.optional 1 "realm" text
  let recoveryCode ← f.required 2 "recoverycode" text
  let password ← f.required 3 "password" text
  pure { user, realm, recoveryCode, password }

/-- The new password as JSON; a realm that is not given is left out. -/
def write (r : PasswordReset) : Json :=
  .object ([("password", .string r.password)] ++ memberIfSome "realm" .string r.realm ++
    [("recoverycode", .string r.recoveryCode), ("user", .string r.user)])

end PasswordReset
end Wire
end MfaConsole
