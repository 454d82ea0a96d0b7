import MfaConsole.Wire.Reader

/-! Definitions of remote servers: as stored, as edited in a form, and as tested before they are stored. -/

namespace MfaConsole
namespace Wire

/-- A stored definition of a remote server. -/
structure ServerDefinition where
  id : Option Int64
  url : String
  tls : Bool
  description : String
  deriving DecidableEq, Inhabited

/-- The form in which a definition is made or changed; it replaces the stored one as a whole. -/
structure ServerForm where
  identifier : String
  url : String
  tls : Bool
  description : String
  deriving DecidableEq

/-- A trial request to a remote server with the credentials of a user. -/
structure ConnectionTest where
  identifier : String
  url : String
  tls : Bool
  username : String
  password : String
  deriving DecidableEq

namespace ServerDefinition

/-- Reads a definition; the certificate is checked unless the definition says otherwise. -/
def read : Reader ServerDefinition := fun v => do
  let f ← Fields.of? 4 v
  let id ← f.optional 0 "id" int64
  let url ← f.required 1 "url" text
  let tls ← f.withDefault 2 "tls" true truth
  let description ← f.withDefault 3 "description" "" text
  pure { id, url, tls, description }

def write (d : ServerDefinition) : Json :=
  .object [("description", .string d.description), ("id", ofNullable ofInt64 d.id), ("tls", .bool d.tls),
    ("url", .string d.url)]

end ServerDefinition

namespace ServerForm

def blank : ServerForm := { identifier := "", url := "", tls := true, description := "" }

instance : Inhabited ServerForm := ⟨blank⟩

/-- The form that shows the definition stored under an identifier. -/
def ofDefinition (identifier : String) (d : ServerDefinition) : ServerForm :=
  { identifier, url := d.url, tls := d.tls, description := d.description }

/-- What is sent to store the definition; the identifier stands in the path. -/
def body (p : ServerForm) : Json :=
  .object [("description", .string p.description), ("tls", .bool p.tls), ("url", .string p.url)]

def read : Reader ServerForm := fun v => do
  let f ← Fields.of? 4 v
  let identifier ← f.required 0 "identifier" text
  let url ← f.required 1 "url" text
  let tls ← f.required 2 "tls" truth
  let description ← f.withDefault 3 "description" "" text
  pure { identifier, url, tls, description }

def write (p : ServerForm) : Json :=
  .object [("description", .string p.description), ("identifier", .string p.identifier), ("tls", .bool p.tls),
    ("url", .string p.url)]

end ServerForm

namespace ConnectionTest

def ofForm (p : ServerForm) (username password : String) : ConnectionTest :=
  { identifier := p.identifier, url := p.url, tls := p.tls, username, password }

def read : Reader ConnectionTest := fun v => do
  let f ← Fields.of? 5 v
  let identifier ← f.required 0 "identifier" text
  let url ← f.required 1 "url" text
  let tls ← f.required 2 "tls" truth
  let username ← f.required 3 "username" text
  let password ← f.required 4 "password" text
  pure { identifier, url, tls, username, password }

def write (t : ConnectionTest) : Json :=
  .object [("identifier", .string t.identifier), ("password", .string t.password), ("tls", .bool t.tls),
    ("url", .string t.url), ("username", .string t.username)]

end ConnectionTest
end Wire
end MfaConsole
