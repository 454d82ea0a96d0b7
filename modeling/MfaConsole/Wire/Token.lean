import MfaConsole.Wire.Machine

/-! Tokens attached to machines: as listed, the key that names one, and what is sent to attach one or to change
    its options. Options stand beside the named members of what is sent. -/

namespace MfaConsole
namespace Wire

/-- The key of one attachment. -/
structure TokenKey where
  serial : String
  application : String
  mtid : Int64
  deriving DecidableEq

/-- A token attached to a machine for an application. -/
structure AttachedToken where
  id : Int64
  serial : String
  application : String
  machineId : Option String
  resolver : Option String
  hostname : Option String
  tokenType : Option String
  options : KeyMap Json

/-- A listing of attached tokens: all at once, or one page with the count of all. -/
inductive TokenPage where
  | whole (tokens : List AttachedToken)
  | page (tokens : List AttachedToken) (count : UInt64)

/-- Which attached tokens are listed. -/
structure TokenFilter where
  serial : Option String
  application : Option String
  machineId : Option String
  resolver : Option String
  hostname : Option String
  deriving DecidableEq, Inhabited

/-- What is sent to attach a token to a machine. -/
structure Attachment where
  serial : String
  application : String
  machineId : Option String
  resolver : Option String
  options : KeyMap String

/-- What is sent to change the options of an attached token. -/
structure OptionUpdate where
  serial : String
  application : String
  machineId : Option String
  resolver : Option String
  mtid : Option Int64
  options : KeyMap String

namespace TokenKey

def read : Reader TokenKey := fun v => do
  let f ← Fields.of? 3 v
  let serial ← f.required 0 "serial" text
  let application ← f.required 1 "application" text
  let mtid ← f.required 2 "mtid" int64
  pure { serial, application, mtid }

def write (k : TokenKey) : Json :=
  .object [("application", .string k.application), ("mtid", ofInt64 k.mtid), ("serial", .string k.serial)]

end TokenKey

namespace AttachedToken

def read : Reader AttachedToken := fun v => do
  let f ← Fields.of? 8 v
  let id ← f.required 0 "id" int64
  let serial ← f.required 1 "serial" text
  let application ← f.required 2 "application" text
  let machineId ← f.optional 3 "machine_id" text
  let resolver ← f.optional 4 "resolver" text
  let hostname ← f.optional 5 "hostname" text
  let tokenType ← f.optional 6 "type" text
  let options ← f.withDefault 7 "options" KeyMap.empty (mapOf anything)
  pure { id, serial, application, machineId, resolver, hostname, tokenType, options }

def write (t : AttachedToken) : Json :=
  .object [("application", .string t.application), ("hostname", Json.ofOption t.hostname), ("id", ofInt64 t.id),
    ("machine_id", Json.ofOption t.machineId), ("options", Json.ofMap t.options),
    ("resolver", Json.ofOption t.resolver), ("serial", .string t.serial), ("type", Json.ofOption t.tokenType)]

def key (t : AttachedToken) : TokenKey :=
  { serial := t.serial, application := t.application, mtid := t.id }

def same (a b : AttachedToken) : Bool := a.write == b.write

instance : BEq AttachedToken := ⟨same⟩

end AttachedToken

namespace TokenPage

/-- Reads the paged form, which is an object and never a list of its fields. -/
def readPage : Reader TokenPage
  | .object ms => do
    let f := Fields.named ms
    let tokens ← f.required 0 "tokens" (listOf AttachedToken.read)
    let count ← f.withDefault 1 "count" 0 uint64
    pure (.page tokens count)
  | _ => none

/-- Reads a listing: a list of tokens if it is one, else a page. -/
def read : Reader TokenPage := fun v =>
  match listOf AttachedToken.read v with
  | some tokens => some (.whole tokens)
  | none => readPage v

def write : TokenPage → Json
  | .whole tokens => ofList AttachedToken.write tokens
  | .page tokens count =>
    .object [("count", .integer count.toNat), ("tokens", ofList AttachedToken.write tokens)]

def tokens : TokenPage → List AttachedToken
  | .whole tokens => tokens
  | .page tokens _ => tokens

def isPage : TokenPage → Bool
  | .whole _ => false
  | .page _ _ => true

end TokenPage

namespace TokenFilter

def everything : TokenFilter :=
  { serial := none, application := none, machineId := none, resolver := none, hostname := none }

def ofMachine (machineId resolver : String) : TokenFilter :=
  { everything with machineId := some machineId, resolver := some resolver }

def query (f : TokenFilter) : List (String × String) :=
  filterPairs [("serial", f.serial), ("application", f.application), ("machineid", f.machineId),
    ("resolver", f.resolver), ("hostname", f.hostname)]

/-- A machine is asked for by its name and its resolver's, as far as these are not empty. -/
theorem query_ofMachine (machineId resolver : String) :
    (ofMachine machineId resolver).query = [("machineid", machineId), ("resolver", resolver)].filter (·.2 ≠ "") := by
  rw [query, ofMachine, everything, filterPairs]
  by_cases hm : machineId = "" <;> by_cases hr : resolver = "" <;> simp [Option.filter_some, hm, hr]

end TokenFilter

/-- The members of an object whose names are not among `names`; each has to be a string. -/
def otherTexts (names : List String) (ms : List (String × Json)) : Option (KeyMap String) :=
  (members text (ms.filter fun m => !names.contains m.1)).map KeyMap.ofList

/-- The named members with the options beside them; an option of a member's name takes its place. -/
def withOptions (named : List (String × Json)) (options : KeyMap String) : Json :=
  Json.ofMembers (named ++ options.entries.map fun e => (e.1, .string e.2))

namespace Attachment

def memberNames : List String := ["serial", "application", "machineid", "resolver"]

/-- Reads what is sent to attach a token; it is an object and never a list of its fields. -/
def read : Reader Attachment
  | .object ms => do
    let f := Fields.named ms
    let serial ← f.required 0 "serial" text
    let application ← f.required 1 "application" text
    let machineId ← f.optional 2 "machineid" text
    let resolver ← f.optional 3 "resolver" text
    let options ← otherTexts memberNames ms
    pure { serial, application, machineId, resolver, options }
  | _ => none

/-- What is sent, as JSON; a machine or resolver that is not given is left out. -/
def write (a : Attachment) : Json :=
  withOptions ([("serial", .string a.serial), ("application", .string a.application)] ++
    memberIfSome "machineid" .string a.machineId ++ memberIfSome "resolver" .string a.resolver) a.options

/-- The machine filled in where none is given. -/
def fillMachine (a : Attachment) (machineId resolver : String) : Attachment :=
  { a with machineId := some (a.machineId.getD machineId), resolver := some (a.resolver.getD resolver) }

end Attachment

namespace OptionUpdate

def memberNames : List String := ["serial", "application", "machineid", "resolver", "mtid"]

/-- Reads what is sent to change options; it is an object and never a list of its fields. -/
def read : Reader OptionUpdate
  | .object ms => do
    let f := Fields.named ms
    let serial ← f.required 0 "serial" text
    let application ← f.required 1 "application" text
    let machineId ← f.optional 2 "machineid" text
    let resolver ← f.optional 3 "resolver" text
    let mtid ← f.optional 4 "mtid" int64
    let options ← otherTexts memberNames ms
    pure { serial, application, machineId, resolver, mtid, options }
  | _ => none

/-- What is sent, as JSON; a machine, resolver or number that is not given is left out. -/
def write (u : OptionUpdate) : Json :=
  withOptions ([("serial", .string u.serial), ("application", .string u.application)] ++
    memberIfSome "machineid" .string u.machineId ++ memberIfSome "resolver" .string u.resolver ++
    memberIfSome "mtid" ofInt64 u.mtid) u.options

/-- The machine filled in where none is given. -/
def fillMachine (u : OptionUpdate) (machineId resolver : String) : OptionUpdate :=
  { u with machineId := some (u.machineId.getD machineId), resolver := some (u.resolver.getD resolver) }

end OptionUpdate
end Wire
end MfaConsole
