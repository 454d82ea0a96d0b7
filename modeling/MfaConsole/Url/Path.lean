import MfaConsole.Text.Pieces

/-! The path of a URL as its segments, and what becomes of segments that are dots: one dot stands for the place
    itself, two dots for the place above. A dot may be written as `%2e`. The letter of a drive, such as `C:`, is
    like a root: nothing above it is reached. -/

namespace MfaConsole
namespace Url

/-- The kinds of URLs, by their schemes. -/
inductive Kind where
  /-- URLs with a host, in which a backslash is as good as a slash. -/
  | web
  | file
  | other
  deriving DecidableEq, Repr

def Kind.isSlash (k : Kind) (c : Char) : Bool := c == '/' || (c == '\\' && k != .other)

/-- The segments of a path; what stands before the first slash counts as one. -/
def segments (k : Kind) (path : List Char) : List (List Char) :=
  Text.pieces '/' (path.map fun c => if k.isSlash c then '/' else c)

def plainDots : List Char → List Char
  | '%' :: '2' :: e :: cs => if e = 'e' ∨ e = 'E' then '.' :: plainDots cs else '%' :: '2' :: e :: plainDots cs
  | c :: cs => c :: plainDots cs
  | [] => []

def isHere (segment : List Char) : Bool := plainDots segment == ['.']

def isAbove (segment : List Char) : Bool := plainDots segment == ['.', '.']

/-- A segment that is the letter of a drive, or begins with one and a backslash. -/
def isDrive : List Char → Bool
  | letter :: mark :: rest =>
    letter.isAlpha && (mark == ':' || mark == '|') && (rest == [] || rest.head? == some '\\')
  | _ => false

/-- The segments walked, the last one first, one step further up. Above the root and a drive there is nothing, so
    that the step leaves them. -/
def up : (walked : List (List Char)) → List (List Char)
  | [] => []
  | s :: walked => if isDrive s then s :: walked else walked

/-- The segments without dots, after those already walked, the last one first. Dots at the end leave a slash at
    the end. -/
def walk : (walked : List (List Char)) → List (List Char) → List (List Char)
  | walked, [] => walked.reverse
  | walked, [s] =>
    if isAbove s then (up walked).reverse ++ [[]]
    else if isHere s then walked.reverse ++ [[]]
    else (s :: walked).reverse
  | walked, s :: t :: rest =>
    if isAbove s then walk (up walked) (t :: rest)
    else if isHere s then walk walked (t :: rest)
    else walk (s :: walked) (t :: rest)

/-- The segments without dots. -/
def withoutDots (segments : List (List Char)) : List (List Char) := walk [] segments

def pathOf (segments : List (List Char)) : List Char := segments.flatMap fun s => '/' :: s

/-- The path from the root that is written after the slash of the root. -/
def rooted (k : Kind) (path : List Char) : List Char := pathOf (withoutDots (segments k path))

end Url
end MfaConsole
