import MfaConsole.Bootstrap
import MfaConsole.Console.Basic
import MfaConsole.Markup.Tree

/-! What surrounds every page: the links to the areas, the notices, and the hidden fields that hand the values of
    the host to the console. -/

namespace MfaConsole
namespace Markup

def areaLink (a : String × String) : Markup := node "li" [] [link a.2 a.1]

def navigationBar (c : Console) : Markup :=
  node "nav" [("class", "nav-bar")]
    [textNode "a" [("class", "nav-bar__brand"), ("href", "/")] Navigation.brand,
     node "ul" [("class", "nav-bar__links")] (c.setup.registry.areaLinks.map areaLink),
     textNode "button" [("class", "nav-bar__reload")] (c.translate "Reload")]

def noticeClass : NoticeKind → String
  | .info => "toast toast--info"
  | .error => "toast toast--error"

def notice (n : Notice) : Markup :=
  node "div" [("class", noticeClass n.kind), ("role", "status")]
    [textNode "span" [("class", "toast__message")] n.message, textNode "button" [("class", "toast__close")] "×"]

def notices (n : Notices) : Markup :=
  node "div" [("class", "toasts"), ("aria-live", "polite")] (n.items.map notice)

/-- What a page shows, in its place. -/
def content (body : List Markup) : Markup := node "main" [("class", "content")] body

def hiddenFields (b : Bootstrap) : List Markup :=
  b.fields.map fun f => node "input" [("type", "hidden"), ("id", f.1), ("value", f.2)] []

end Markup
end MfaConsole
