import MfaConsole.Wire.Reader

/-! Machines and the filter under which they are listed. -/

namespace MfaConsole
namespace Wire

/-- The set fields of a filter that are not empty, with their names. -/
def filterPairs (fields : List (String × Option String)) : List (String × String) :=
  fields.filterMap fun f => (f.2.filter (· ≠ "")).map fun v => (f.1, v)

/-- A machine as its resolver lists it. -/
structure Machine where
  id : String
  hostname : String
  ip : String
  resolverName : String
  deriving DecidableEq, Inhabited

/-- Which machines are listed. -/
structure MachineFilter where
  hostname : Option String
  ip : Option String
  id : Option String
  resolver : Option String
  /-- A term looked for in host name, address and id at once. -/
  any : Option String
  deriving DecidableEq, Inhabited

namespace Machine

def read : Reader Machine := fun v => do
  let f ← Fields.of? 4 v
  let id ← f.withDefault 0 "id" "" text
  let hostname ← f.withDefault 1 "hostname" "" text
  let ip ← f.withDefault 2 "ip" "" text
  let resolverName ← f.withDefault 3 "resolver_name" "" text
  pure { id, hostname, ip, resolverName }

def write (m : Machine) : Json :=
  .object [("hostname", .string m.hostname), ("id", .string m.id), ("ip", .string m.ip),
    ("resolver_name", .string m.resolverName)]

end Machine

namespace MachineFilter

def everything : MachineFilter := { hostname := none, ip := none, id := none, resolver := none, any := none }

/-- The machines of one resolver, or all of them. -/
def ofResolver (resolver : Option String) : MachineFilter := { everything with resolver }

def query (f : MachineFilter) : List (String × String) :=
  filterPairs [("hostname", f.hostname), ("ip", f.ip), ("id", f.id), ("resolver", f.resolver), ("any", f.any)]

/-- A resolver is asked for by its name; one without a name is none. -/
theorem query_ofResolver (resolver : Option String) :
    (ofResolver resolver).query = (resolver.filter (· ≠ "")).toList.map ("resolver", ·) := by
  rw [query, ofResolver, everything, filterPairs]
  cases resolver with
  | none => rfl
  | some name => by_cases h : name = "" <;> simp [Option.filter_some, h]

end MachineFilter
end Wire
end MfaConsole
