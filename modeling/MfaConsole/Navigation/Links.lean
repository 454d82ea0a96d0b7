import MfaConsole.Locale.Catalog
import MfaConsole.Navigation.Registry
import MfaConsole.Wire.Machine

/-! Links and titles that views take from the table of states. -/

namespace MfaConsole
namespace Navigation

def brand : String := "eduMFA"

/-- The areas of the console: a label and the state that leads there. -/
def areas : List (String × String) :=
  [("Components", "component"), ("Machines", "machine"), ("Config", "config"), ("Recovery", "recovery")]

def machineListState : String := "machine.list"

def machineDetailsState : String := "machine.details"

def serverListState : String := "config.edumfaserver.list"

def newServerState : String := "config.edumfaserver.new"

def editServerState : String := "config.edumfaserver.edit"

namespace Registry
variable (r : Registry)

/-- The URL of a state, if it has one. -/
def href? (name : String) (params : List (String × String)) : Option String :=
  (r.href name params).toOption

/-- The links to the areas; an area without a state is left out. -/
def areaLinks : List (String × String) :=
  areas.filterMap fun a => (r.href? a.2 []).map fun url => (a.1, url)

def redirectTarget? (path : String) : Option String :=
  match r.resolve path with
  | .ok (.redirect _ _ url) => some url
  | _ => none

/-- The title of the document at a URL: the brand, with the heading of the controller of the state reached. -/
def pageTitle (catalog : Locale.Catalog) (path : String) : String :=
  match r.resolve path with
  | .ok (.matched m) =>
    match m.controller with
    | some c => brand ++ " | " ++ catalog.translate c.title
    | none => brand
  | _ => brand

def editHref? (identifier : String) : Option String :=
  r.href? editServerState [("identifier", identifier)]

def detailsHref? (m : Wire.Machine) : Option String :=
  r.href? machineDetailsState [("machineid", m.id), ("machineresolver", m.resolverName)]

end Registry
end Navigation
end MfaConsole
