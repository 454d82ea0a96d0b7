import MfaConsole.Console.Basic
import MfaConsole.Markup.Tree

/-! The landing page and the list of client applications. -/

namespace MfaConsole
namespace Markup

def areaEntry (a : String × String) : Markup :=
  node "li" [] [textNode "a" [("class", "home__area"), ("href", a.2)] a.1]

/-- The landing page, with a link to each area. -/
def home (c : Console) : Markup :=
  node "section" [("class", "home")]
    [textNode "h1" [] (c.translate "eduMFA administration"),
     node "ul" [("class", "home__areas")] (c.setup.registry.areaLinks.map areaEntry)]

def clientRow (r : String × Wire.ClientEntry) : Markup :=
  row [[.text r.1], [.text (r.2.hostname.getD "")], [.text (r.2.ip.getD "")], [.text (r.2.lastSeen.getD "")]]

def loadingNote (loading : Bool) : List Markup :=
  if loading then [textNode "p" [("class", "loading")] "Loading..."] else []

/-- The client applications, in the order of their types. -/
def clients (c : Console) : Markup :=
  node "section" [("class", "components")]
    (textNode "h2" [] "Client applications" :: loadingNote c.clients.loading ++
      [table ["Client type", "Hostname", "IP", "Last seen"]
        ((Wire.ClientTypes.rows c.clients.clientTypes).map clientRow)])

end Markup
end MfaConsole
