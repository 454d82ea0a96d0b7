import MfaConsole.Console.Basic
import MfaConsole.Markup.Tree

/-! The pages of machines: the list, and the details of one machine with the tokens attached to it. -/

namespace MfaConsole
namespace Markup

/-- The row of a machine, with a link to its details. -/
def machineRow (r : Navigation.Registry) (m : Wire.Machine) : Markup :=
  row [[link ((r.detailsHref? m).getD "") m.hostname], [.text m.ip], [.text m.id], [.text m.resolverName]]

def machineList (c : Console) : Markup :=
  node "section" [("class", "machines")]
    [textNode "h2" [] "Machines",
     node "form" [("class", "filter")] [field "text" "Resolver", submit "Filter"],
     table ["Hostname", "IP", "ID", "Resolver"] (c.machines.machines.map (machineRow c.setup.registry))]

def machineHeading : Option (String × String) → String
  | some (machineId, resolver) => "Machine " ++ machineId ++ " (" ++ resolver ++ ")"
  | none => "Machine"

/-- The row of an attached token: what it is, its options, and the button that detaches it. -/
def tokenRow (t : Wire.AttachedToken) : Markup :=
  row [[.text t.serial], [.text (t.tokenType.getD "")], [.text t.application],
    [node "input" [("type", "text")] [], textNode "button" [] "Save"], [dangerButton "Detach"]]

def choice (name : String) : Markup := textNode "option" [("value", name)] name

def machineDetails (c : Console) : Markup :=
  node "section" [("class", "machine-details")]
    [textNode "h2" [] (machineHeading c.machines.selected),
     table ["Serial", "Type", "Application", "Options", ""] (c.machines.tokens.map tokenRow),
     node "form" [("class", "attach")]
       [textNode "h3" [] "Attach token", field "text" "Serial",
        node "select" [] (textNode "option" [("value", "")] "Application" :: c.machines.applicationNames.map choice),
        submit "Attach"]]

end Markup
end MfaConsole
