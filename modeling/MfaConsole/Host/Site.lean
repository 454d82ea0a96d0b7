import MfaConsole.Host.Config
import MfaConsole.Host.Directory
import MfaConsole.Host.Relay
import MfaConsole.Host.Route
import MfaConsole.Locale.Preference
import MfaConsole.Markup.Document
import MfaConsole.Url.Reference

/-! The host as a whole: a sign of life, two directories of files below the mount path, the pages at their own
    paths, and the relay for all the rest. -/

namespace MfaConsole
namespace Host

/-- The language that a request asks for; only the first of several headers counts. -/
def requestLanguage (values : List (List UInt8)) : String :=
  match values.head?.bind Headers.text? with
  | some header => Locale.preferred header
  | none => ""

/-- The pages of a host: what it hands to the console, and the release in force. -/
structure Pages where
  bootstrap : Bootstrap
  release : Release

namespace Pages

/-- Whether a request asks for a document, which a program that fetches data does not. -/
def wantsDocument (q : Request) : Bool :=
  ((q.headers.first? "accept").bind Headers.text?).any (Text.occursIn "text/html".toList)

/-- The document of a request, in the language it asks for. -/
def document (p : Pages) (q : Request) : Response :=
  let language := requestLanguage (q.headers.filterMap fun h =>
    if Headers.sameName h.1 "accept-language" then some h.2 else none)
  let b := { p.bootstrap with language }
  let c := Console.mounted (normalizeInstance b.mount) p.release language none
  let path := Url.rooted .web (q.path.toList.drop 1)
  let s := Markup.Screen.ofPath c path
  { status := if s.location.isSome && wantsDocument q then 302 else 200,
    contentType := some "text/html".toUTF8.toList, allow := none, location := s.location,
    content := .document (Markup.document b p.release c path s) }

def respond (p : Pages) (q : Request) : Response :=
  if Response.isReading q.method then p.document q else .notAllowed

end Pages

/-- A host. -/
structure Site where
  relay : Relay
  mount : String
  assets : Directory
  bundle : Directory
  /-- The pages, if the host has them. -/
  pages : Option Pages

/-- Whether a segment of a place stands for a piece of a path. A parameter stands for any, while a segment that only
    has a parameter in it stands for itself. -/
def standsFor (segment piece : List Char) : Bool :=
  segment == piece ||
    (Navigation.Segment.enclosed? segment).any fun name =>
      name.head? != some '\x7b' && name.getLast? != some '\x7d'

def restBelow? : (place path : List (List Char)) → Option (List (List Char))
  | [], rest => some rest
  | _ :: _, [] => none
  | s :: ss, p :: ps => if standsFor s p then restBelow? ss ps else none

/-- The path below a place, if it is the place itself or below it; the place itself is `/`. -/
def below? (place path : String) : Option String :=
  (restBelow? (Text.pieces '/' place.toList) (Text.pieces '/' path.toList)).map fun rest =>
    if rest = [] then "/" else String.ofList (Url.pathOf rest)

namespace Site

def bundlePlace : String := "target/site/pkg"

/-- The host of a configuration, with the release in force. Neither directory exists, as long as none is said to. -/
def ofConfig (c : Config) (release : Release) : Site :=
  { relay := .ofBase c.backend c.mount, mount := c.mount, assets := .absent c.staticDirectory,
    bundle := .absent bundlePlace, pages := some { bootstrap := c.bootstrap, release } }

variable (s : Site)

def health (q : Request) : Response :=
  if Response.isReading q.method then .bare 200 else .notAllowed

/-- The routes to a directory that stands at a place. The path below the place names the file; where the place does
    not stand for the beginning of the path, the whole path does. -/
def directoryAt (place : String) (d : Directory) : List (Route × (Request → Response)) :=
  (Route.toPlace place).map fun r => (r, fun q => d.respond q ((below? place q.path).getD q.path))

def pageRoutes (p : Pages) : List (Route × (Request → Response)) :=
  Markup.Page.routes.map fun r => (Route.ofText r.1, p.respond)

/-- All that is answered without the relay. Pages refer to the files of the console at the root, so that a host with
    pages has them there too. -/
def table : List (Route × (Request → Response)) :=
  (Route.ofText "/healthz", health) :: directoryAt (s.mount ++ "/static") s.assets ++
    directoryAt (s.mount ++ "/pkg") s.bundle ++
    s.pages.elim [] fun p => directoryAt "/pkg" s.bundle ++ pageRoutes p

/-- The answer to a request that is not for the relay. -/
def own? (q : Request) : Option Response := (Route.select? s.table q.path).map (· q)

def respond {ν : Type} (carry : Carrier ν) (network : ν) (q : Request) : ν × Response :=
  let (network, r) := match s.own? q with
    | some r => (network, r)
    | none => s.relay.respond carry network q
  (network, r.sent q.method)

end Site
end Host
end MfaConsole
