import MfaConsole.KeyMap
import MfaConsole.Text.Percent
import MfaConsole.Text.Pieces

/-! URL patterns of navigation states: path segments that are literal or name a parameter, and the names of the
    query parameters a state takes. -/

namespace MfaConsole
namespace Navigation

/-- A segment of a pattern. -/
inductive Segment where
  | literal (text : String)
  | parameter (name : String)
  deriving DecidableEq, Repr

/-- A URL pattern. -/
structure Pattern where
  segments : List Segment
  queryNames : List String
  deriving DecidableEq, Inhabited, Repr

/-- The pieces of a path; empty ones count for nothing. -/
def pathPieces (path : List Char) : List (List Char) :=
  (Text.pieces '/' path).filter (· ≠ [])

namespace Segment

def enclosed? : List Char → Option (List Char)
  | '\x7b' :: cs => if cs.getLast? = some '\x7d' then some cs.dropLast else none
  | _ => none

/-- The segment a piece of a pattern stands for. A piece in braces names a parameter; what follows a colon in it
    counts for nothing, since a parameter always takes one segment. -/
def ofPiece (piece : List Char) : Segment :=
  match enclosed? piece with
  | some inner => .parameter (String.ofList (Text.cutOrAll ':' inner).1)
  | none => .literal (String.ofList piece)

def isLiteral : Segment → Bool
  | .literal _ => true
  | .parameter _ => false

def render : Segment → String
  | .literal text => text
  | .parameter name => "\x7b" ++ name ++ "\x7d"

end Segment

namespace Pattern

/-- The pattern that a text such as `/details/{machine:.*}?resolver&name` stands for. -/
def ofChars (cs : List Char) : Pattern :=
  let (path, query) := Text.cutOrAll '?' cs
  { segments := (pathPieces path).map Segment.ofPiece,
    queryNames := ((Text.pieces '&' query).filter (· ≠ [])).map String.ofList }

def parse (s : String) : Pattern := ofChars s.toList

def join (parent child : Pattern) : Pattern :=
  { segments := parent.segments ++ child.segments, queryNames := parent.queryNames ++ child.queryNames }

def literalCount (p : Pattern) : Nat := p.segments.countP Segment.isLiteral

def hasParameters (p : Pattern) : Bool := p.segments.any fun s => !s.isLiteral

/-- The parameters of the pieces: a literal segment is equal to its piece, a parameter is the text its piece
    stands for, and of two parameters of one name the later one counts. -/
def bind? : List Segment → List (List Char) → KeyMap String → Option (KeyMap String)
  | [], [], found => some found
  | .literal text :: ss, p :: ps, found => if text.toList = p then bind? ss ps found else none
  | .parameter name :: ss, p :: ps, found =>
    bind? ss ps (found.insert name (String.ofList (Text.Percent.decodeChars p)))
  | _, _, _ => none

/-- The parameters of a path, if it fits the pattern. -/
def match? (p : Pattern) (pieces : List (List Char)) : Option (KeyMap String) :=
  bind? p.segments pieces KeyMap.empty

def render (p : Pattern) : String :=
  let path := String.join (p.segments.map fun s => "/" ++ s.render)
  let path := if path = "" then "/" else path
  if p.queryNames = [] then path else path ++ "?" ++ "&".intercalate p.queryNames

end Pattern
end Navigation
end MfaConsole
