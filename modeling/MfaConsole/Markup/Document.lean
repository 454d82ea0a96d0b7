import MfaConsole.Markup.Page

/-! The document that the host sends for a page: the console as it is before any reply has arrived. -/

namespace MfaConsole
namespace Markup

def documentLanguage (language : String) : String :=
  if language = "" then Locale.sourceLanguage else language

def stylesheet (mount : String) (release : Release) : String :=
  release.decorate (mount ++ "/pkg/edumfa-webui.css")

def documentHead (b : Bootstrap) (release : Release) (title : String) : Markup :=
  node "head" []
    [node "meta" [("charset", "utf-8")] [],
     node "meta" [("name", "viewport"), ("content", "width=device-width, initial-scale=1")] [],
     node "link" [("rel", "stylesheet"), ("id", "leptos"), ("href", stylesheet b.mount release)] [],
     textNode "title" [] title]

/-- The document of a page at a path: what the host hands over, the release in force, and what is seen there. -/
def document (b : Bootstrap) (release : Release) (c : Console) (path : List Char) (s : Screen) : Markup :=
  let title := c.setup.registry.pageTitle c.setup.catalog (String.ofList path)
  node "html" [("lang", documentLanguage b.language)]
    [documentHead b release title, node "body" [] (hiddenFields b ++ s.parts c)]

end Markup
end MfaConsole
