import MfaConsole.Console.Basic
import MfaConsole.Markup.Tree

/-! The pages of remote servers: the list of definitions, and the form of one definition. -/

namespace MfaConsole
namespace Markup

/-- How the certificate of a remote server is treated, in words. -/
def certificateLabel (isVerified : Bool) : String := if isVerified then "verify" else "no verify"

/-- The row of a definition, with a link to its form. -/
def serverRow (r : Navigation.Registry) (e : String × Wire.ServerDefinition) : Markup :=
  row [[link ((r.editHref? e.1).getD "") e.1], [.text e.2.url], [.text (certificateLabel e.2.tls)],
    [.text e.2.description], [dangerButton "Delete"]]

def serverList (c : Console) : Markup :=
  let newUrl := (c.setup.registry.href? Navigation.newServerState []).getD ""
  node "section" [("class", "edumfa-servers")]
    [textNode "h2" [] "eduMFA servers",
     textNode "a" [("class", "button"), ("href", newUrl)] "New eduMFA server",
     table ["Identifier", "URL", "TLS", "Description", ""]
       (c.servers.servers.entries.map (serverRow c.setup.registry))]

/-- A field of the form, with its label before it. -/
def labelled (label kind : String) : Markup :=
  node "label" [] [.text label, node "input" [("type", kind)] []]

def formHeading (editing : Option String) : String :=
  if editing.isSome then "Edit eduMFA server" else "New eduMFA server"

/-- The form of a definition, and below it the form that tries the remote server. -/
def serverForm (c : Console) : Markup :=
  node "section" [("class", "edumfa-server-form")]
    [textNode "h2" [] (formHeading c.servers.editing),
     node "form" []
       [labelled "Identifier" "text", labelled "URL" "url",
        node "label" [] [node "input" [("type", "checkbox")] [], .text "Verify the TLS certificate"],
        labelled "Description" "text", submit "Save"],
     node "fieldset" [("class", "connection-test")]
       [textNode "legend" [] "Test connection", field "text" "Username", field "password" "Password",
        textNode "button" [("type", "button")] "Test"]]

end Markup
end MfaConsole
