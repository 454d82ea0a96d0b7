import MfaConsole.Markup.Frame
import MfaConsole.Markup.Machines
import MfaConsole.Markup.Overview
import MfaConsole.Markup.Recovery
import MfaConsole.Markup.Servers
import MfaConsole.Navigation.Pattern

/-! The pages of the console and the paths at which they stand. A parent state has a path but no page of its own:
    it leads on to the state that stands in for it. -/

namespace MfaConsole
namespace Markup

/-- A page. -/
inductive Page where
  | home
  | clients
  | machineList
  | machineDetails
  | codeForm
  | passwordForm
  | serverList
  | serverForm
  | parent
  deriving DecidableEq, Repr

namespace Page

def routes : List (String × Page) :=
  [("/", .home),
   ("/component", .parent),
   ("/component/clienttype", .clients),
   ("/machine", .parent),
   ("/machine/list", .machineList),
   ("/machine/details/\x7bmachineid\x7d/\x7bmachineresolver\x7d", .machineDetails),
   ("/recovery", .codeForm),
   ("/reset/\x7buser\x7d/\x7brecoverycode\x7d", .passwordForm),
   ("/config", .parent),
   ("/config/edumfaserver", .parent),
   ("/config/edumfaserver/list", .serverList),
   ("/config/edumfaserver/new", .serverForm),
   ("/config/edumfaserver/edit/\x7bidentifier\x7d", .serverForm)]

/-- Whether pieces fit the segments of a pattern: a literal segment is equal to its piece, and a parameter takes
    any piece that is not empty. -/
def fits : List Navigation.Segment → List (List Char) → Bool
  | [], [] => true
  | .literal name :: ss, p :: ps => name.toList == p && fits ss ps
  | .parameter _ :: ss, p :: ps => p != [] && fits ss ps
  | _, _ => false

/-- The path without one slash at its end. -/
def withoutSlash (path : List Char) : List Char :=
  if path.getLast? = some '/' then path.dropLast else path

/-- The pieces of a path that begins with a slash; the empty path has none. -/
def pieces? : List Char → Option (List (List Char))
  | [] => some []
  | '/' :: cs => some (Text.pieces '/' cs)
  | _ => none

/-- The page at a path; one slash at its end counts for nothing. -/
def ofPath? (path : List Char) : Option Page :=
  (pieces? (withoutSlash path)).bind fun pieces =>
    (routes.find? fun r => fits (Navigation.Pattern.parse r.1).segments pieces).map (·.2)

end Page

/-- What is seen at a path: the page, or where the path leads on to. -/
structure Screen where
  location : Option String
  body : List Markup

namespace Screen

def missingText : String := "Page not found."

def page (m : Markup) : Screen := { location := none, body := [m] }

def parent (c : Console) (path : List Char) : Screen :=
  match c.setup.registry.redirectTarget? (String.ofList path) with
  | some url => { location := some url, body := [] }
  | none => page (textNode "p" [("class", "not-found")] missingText)

def ofPath (c : Console) (path : List Char) : Screen :=
  match Page.ofPath? path with
  | none => page (.text missingText)
  | some .home => page (home c)
  | some .clients => page (clients c)
  | some .machineList => page (machineList c)
  | some .machineDetails => page (machineDetails c)
  | some .codeForm => page (codeForm c)
  | some .passwordForm => page (passwordForm c)
  | some .serverList => page (serverList c)
  | some .serverForm => page (serverForm c)
  | some .parent => parent c path

def parts (c : Console) (s : Screen) : List Markup :=
  [navigationBar c, notices c.notices, content s.body]

end Screen
end Markup
end MfaConsole
