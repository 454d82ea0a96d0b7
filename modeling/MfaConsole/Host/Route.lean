import MfaConsole.Text.Pieces

/-! Routes: the forms of paths that a host answers, and the choice among several of them. A route is a text of
    characters that stand for themselves and of parameters, each of which takes the path up to the next slash. -/

namespace MfaConsole
namespace Host

/-- A step of a route along a path. -/
inductive Step where
  | char (c : Char)
  /-- The path up to the next slash, where there is any of it. -/
  | parameter
  /-- All the rest of the path, where there is any. -/
  | rest
  deriving DecidableEq, Repr

abbrev Route := List Step

namespace Route

/-- The route that a text stands for, inside the braces of a parameter or outside of them. Two braces of a kind are
    one that stands for itself. -/
def ofChars : (inside : Bool) → List Char → Route
  | true, '\x7d' :: '\x7d' :: cs => ofChars true cs
  | true, '\x7d' :: cs => ofChars false cs
  | true, _ :: cs => ofChars true cs
  | false, '\x7b' :: '\x7b' :: cs => .char '\x7b' :: ofChars false cs
  | false, '\x7d' :: '\x7d' :: cs => .char '\x7d' :: ofChars false cs
  | false, '\x7b' :: cs => .parameter :: ofChars true cs
  | false, c :: cs => .char c :: ofChars false cs
  | _, [] => []

/-- The route that a text such as `/reset/{user}` stands for. -/
def ofText (text : String) : Route := ofChars false text.toList

/-- The routes to a place, with a slash or without, and to all that is below it. -/
def toPlace (place : String) : List Route :=
  [ofText place, ofText place ++ [.char '/'], ofText place ++ [.char '/', .rest]]

/-- Whether a route leads along a path to its end. A parameter may be empty before a slash, but not at the end. -/
def fits : Route → List Char → Bool
  | [], cs => cs == []
  | .char c :: steps, d :: cs => c == d && fits steps cs
  | .char _ :: _, [] => false
  | .parameter :: steps, cs => cs != [] && fits steps (cs.dropWhile (· != '/'))
  | .rest :: _, cs => cs != []

/-- Whether a route is chosen before another. Where they part, the one that goes on with a character is chosen. -/
def precedes : Route → Route → Bool
  | .char c :: steps, .char d :: others => c == d && precedes steps others
  | .char _ :: _, _ :: _ => true
  | .parameter :: steps, .parameter :: others => precedes steps others
  | _, _ => false

/-- What stands at the route that is chosen for a path among those that fit. -/
def select? {α : Type} (table : List (Route × α)) (path : String) : Option α :=
  let fitting := table.filter fun r => r.1.fits path.toList
  (fitting.find? fun r => !fitting.any fun s => s.1.precedes r.1).map (·.2)

end Route
end Host
end MfaConsole
