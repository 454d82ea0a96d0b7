import MfaConsole.Wire.Reader

/-! Client applications that have talked to the backend, grouped by their type. -/

namespace MfaConsole
namespace Wire

/-- One client application. -/
structure ClientEntry where
  hostname : Option String
  ip : Option String
  lastSeen : Option String
  deriving DecidableEq, Inhabited

abbrev ClientTypes := KeyMap (List ClientEntry)

namespace ClientEntry

def read : Reader ClientEntry := fun v => do
  let f ← Fields.of? 3 v
  let hostname ← f.optional 0 "hostname" text
  let ip ← f.optional 1 "ip" text
  let lastSeen ← f.optional 2 "lastseen" text
  pure { hostname, ip, lastSeen }

def write (e : ClientEntry) : Json :=
  .object [("hostname", Json.ofOption e.hostname), ("ip", Json.ofOption e.ip),
    ("lastseen", Json.ofOption e.lastSeen)]

end ClientEntry

namespace ClientTypes

def read : Reader ClientTypes := mapOf (listOf ClientEntry.read)

/-- Client applications by type, as JSON. -/
def write (t : ClientTypes) : Json := ofMap (ofList ClientEntry.write) t

/-- One row for each client application, in the order of the types. -/
def rows (t : ClientTypes) : List (String × ClientEntry) :=
  t.entries.flatMap fun e => e.2.map fun c => (e.1, c)

end ClientTypes
end Wire
end MfaConsole
