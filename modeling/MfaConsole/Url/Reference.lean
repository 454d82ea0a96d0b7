import MfaConsole.Text.Blank
import MfaConsole.Url.Path

/-! References to places of the web: a URL with its scheme, one without the scheme, or a path. A reference leads
    from the root of a site to a path, which is that of the place referred to on its own site. -/

namespace MfaConsole
namespace Url

/-- A blank or control character of ASCII, which a reference does not begin or end with. -/
def isPadding (c : Char) : Bool := c.toNat ≤ 0x20

/-- A tab or line break, which counts for nothing anywhere in a reference. -/
def isIgnored (c : Char) : Bool := c == '\t' || c == '\n' || c == '\r'

/-- A reference without what counts for nothing. -/
def clean (reference : List Char) : List Char :=
  (Text.dropEndWhile isPadding (reference.dropWhile isPadding)).filter fun c => !isIgnored c

def beforeQuery (reference : List Char) : List Char :=
  reference.takeWhile fun c => c != '?' && c != '#'

def isSchemeChar (c : Char) : Bool := c.isAlphanum || c == '+' || c == '-' || c == '.'

/-- The scheme of a reference in small letters, and what follows its colon. A scheme begins with a letter. -/
def scheme? (reference : List Char) : Option (String × List Char) :=
  match reference.span isSchemeChar with
  | (c :: name, ':' :: rest) =>
    if c.isAlpha then some (String.ofList ((c :: name).map Char.toLower), rest) else none
  | _ => none

def webSchemes : List String := ["http", "https", "ws", "wss", "ftp"]

def Kind.ofScheme (name : String) : Kind :=
  if webSchemes.contains name then .web else if name = "file" then .file else .other

def siteScheme : String := "https"

/-- The path that follows a host. Without a path it is the root, but for URLs that need none. -/
def pathAfterHost (k : Kind) : List Char → List Char
  | [] => if k = .other then [] else rooted k []
  | _ :: path => rooted k path

def afterSlashes (k : Kind) (cs : List Char) : List Char :=
  pathAfterHost k (cs.dropWhile fun c => !k.isSlash c)

def slashes (cs : List Char) : Nat := (cs.takeWhile Kind.web.isSlash).length

/-- The path of a reference without a scheme. -/
def relative (cs : List Char) : List Char :=
  match slashes cs with
  | 0 => rooted .web cs
  | 1 => rooted .web (cs.drop 1)
  | n + 2 => afterSlashes .web (cs.drop (if (Text.after? ['/', '/'] cs).isSome then 2 else n + 2))

/-- The path of a URL with a host, after the colon of its scheme. One in the scheme of the site may do without
    the host, and is then like a reference without a scheme. -/
def ofWeb (scheme : String) (cs : List Char) : List Char :=
  if scheme = siteScheme ∧ slashes cs < 2 then relative cs
  else afterSlashes .web (cs.dropWhile Kind.web.isSlash)

/-- The path that follows the two slashes of a file's URL. A drive is no host. -/
def afterFileSlashes (cs : List Char) : List Char :=
  if isDrive (cs.takeWhile fun c => !Kind.file.isSlash c) then rooted .file cs else afterSlashes .file cs

/-- The path of the URL of a file, after the colon of its scheme. Slashes at its beginning count as one. -/
def ofFile (cs : List Char) : List Char :=
  let path := match slashes cs with
    | 0 => rooted .file cs
    | 1 => rooted .file (cs.drop 1)
    | _ => afterFileSlashes (cs.drop 2)
  '/' :: path.dropWhile (· == '/')

/-- The path of a URL of another scheme, after the colon. What does not begin with a slash is no path of
    segments, and is taken as it stands. -/
def ofOther : List Char → List Char
  | '/' :: '/' :: cs => afterSlashes .other cs
  | '/' :: cs => rooted .other cs
  | cs => cs

def pathFromRoot (reference : List Char) : List Char :=
  let r := beforeQuery (clean reference)
  match scheme? r with
  | none => relative r
  | some (name, rest) =>
    match Kind.ofScheme name with
    | .web => ofWeb name rest
    | .file => ofFile rest
    | .other => ofOther rest

end Url
end MfaConsole
