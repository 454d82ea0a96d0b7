import MfaConsole.Text.Pieces
import MfaConsole.Url.Reference

/-! What a request asks for, as its first line has it: a path with or without a query, a whole URL, a star for the
    host as such, or the name of a host alone. -/

namespace MfaConsole
namespace Host

/-- A path and a query. -/
structure Target where
  /-- It begins with a slash, or is a star, or is empty where only a host is named. -/
  path : String
  query : Option String
  deriving DecidableEq, Repr

namespace Target

/-- The target of a path that may be followed by a query. An empty path is the root. -/
def ofPath (cs : List Char) : Target :=
  let (path, query) := match Text.cutFirst? '?' cs with
    | some (path, query) => (path, some (String.ofList query))
    | none => (cs, none)
  ⟨if path = [] then "/" else String.ofList path, query⟩

/-- What follows the host of a whole URL. -/
def afterHost? (cs : List Char) : Option (List Char) :=
  (Text.after? "://".toList (cs.dropWhile Url.isSchemeChar)).map fun rest =>
    rest.dropWhile fun c => c != '/' && c != '?'

/-- The target that a text names; a fragment counts for nothing. -/
def ofText (text : String) : Target :=
  match text.toList.takeWhile (· != '#') with
  | '/' :: cs => ofPath ('/' :: cs)
  | ['*'] => ⟨"*", none⟩
  | cs => (afterHost? cs).elim ⟨"", none⟩ ofPath

end Target
end Host
end MfaConsole
