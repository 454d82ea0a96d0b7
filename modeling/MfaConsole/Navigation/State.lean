import MfaConsole.Navigation.Pattern
import MfaConsole.Release

/-! Navigation states. The name of a state is dotted: its parent is the name up to the last dot, and its URL
    pattern follows that of its parent. -/

namespace MfaConsole
namespace Navigation

/-- What drives the view of a state. -/
inductive Controller where
  | components
  | machineDetails
  | recovery
  | servers
  deriving DecidableEq, Repr

def Controller.title : Controller → String
  | .components => "Components"
  | .machineDetails => "Machine details"
  | .recovery => "Password recovery"
  | .servers => "eduMFA servers"

/-- The declaration of a state: its dotted name, its pattern below its parent, and its template. -/
structure Declaration where
  name : String
  url : String
  area : String
  view : String
  controller : Option Controller
  deriving DecidableEq, Repr

/-- A state with its whole pattern. -/
structure State where
  name : String
  pattern : Pattern
  template : String
  controller : Option Controller
  deriving DecidableEq, Inhabited, Repr

/-- The name up to the last dot. -/
def parentName? (name : String) : Option String :=
  (Text.cutLast? '.' name.toList).map fun r => String.ofList r.1

/-- The name of the state's parent, if it has one. -/
def State.parent? (s : State) : Option String := parentName? s.name

def State.url (s : State) : String := s.pattern.render

def declarations : List Declaration :=
  [{ name := "component", url := "/component", area := "components", view := "component",
     controller := some .components },
   { name := "component.clienttype", url := "/clienttype", area := "components", view := "component.clienttype",
     controller := some .components },
   { name := "machine", url := "/machine", area := "machine", view := "machine", controller := none },
   { name := "machine.list", url := "/list?resolver", area := "machine", view := "machine.list",
     controller := none },
   { name := "machine.details", url := "/details/\x7bmachineid:.*\x7d/\x7bmachineresolver:.*\x7d",
     area := "machine", view := "machine.details", controller := some .machineDetails },
   { name := "recovery", url := "/recovery", area := "recovery", view := "recovery",
     controller := some .recovery },
   { name := "reset", url := "/reset/\x7buser:.*\x7d/\x7brecoverycode:.*\x7d", area := "recovery",
     view := "recovery.reset", controller := some .recovery },
   { name := "config", url := "/config", area := "config", view := "config", controller := none },
   { name := "config.edumfaserver", url := "/edumfaserver", area := "config", view := "config.edumfaserver",
     controller := some .servers },
   { name := "config.edumfaserver.list", url := "/list", area := "config", view := "config.edumfaserver.list",
     controller := some .servers },
   { name := "config.edumfaserver.new", url := "/new", area := "config", view := "config.edumfaserver.details",
     controller := some .servers },
   { name := "config.edumfaserver.edit", url := "/edit/\x7bidentifier:.*\x7d", area := "config",
     view := "config.edumfaserver.details", controller := some .servers }]

def defaultChildren : List (String × String) :=
  [("component", "component.clienttype"), ("machine", "machine.list"), ("config", "config.edumfaserver"),
   ("config.edumfaserver", "config.edumfaserver.list")]

end Navigation
end MfaConsole
