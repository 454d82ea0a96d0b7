import MfaConsole.Console.Desk

/-! A console that works against written replies. The replies to a method and URL are used in order, and the last
    one again and again; a reply with the name of a hold arrives when that hold is released. -/

namespace MfaConsole
namespace Console

/-- A written reply. -/
structure Line where
  method : Rest.Method
  url : String
  reply : Rest.Reply
  hold : Option String

/-- The written replies still to come, and those held back, with the number of the request each answers. -/
structure Script where
  lines : List Line
  held : List (Nat × String × Rest.Reply)

namespace Script

def unwritten : Rest.Reply :=
  .ok { status := 404,
        body := .object [("result", .object [("error", .object [("message", .string "no scripted reply")]),
          ("status", .bool false)])],
        shapeReason := "" }

def answers (l : Line) (r : Rest.Request) : Bool := l.method = r.method && l.url == r.url

/-- The lines without the first that answers a request. -/
def dropFirst (r : Rest.Request) (lines : List Line) : List Line :=
  lines.eraseP (answers · r)

/-- The lines left after a request: the first that answers it is used up, unless it is the last to do so. -/
def rest (r : Rest.Request) (lines : List Line) : List Line :=
  if lines.countP (answers · r) ≤ 1 then lines else dropFirst r lines

def answer : Backend Script := fun s ticket r =>
  match s.lines.find? (answers · r) with
  | none => (s, some unwritten)
  | some l =>
    let s := { s with lines := rest r s.lines }
    match l.hold with
    | none => (s, some l.reply)
    | some name => ({ s with held := s.held ++ [(ticket, name, l.reply)] }, none)

/-- The replies held back under a name, in the order of their requests. -/
def heldUnder (s : Script) (name : String) : List (Nat × Rest.Reply) :=
  s.held.filterMap fun h => if h.2.1 = name then some (h.1, h.2.2) else none

end Script

/-- The replies held back under a name arrive. The number is that of the replies somebody waited for. -/
def Desk.release (d : Desk Script) (name : String) : Desk Script × Nat :=
  let arrived := d.backend.heldUnder name
  let awaited := arrived.filter fun a => (d.waitsFor? a.1).isSome
  let d := { d with backend := { d.backend with held := d.backend.held.filter fun h => h.2.1 ≠ name } }
  (d.deliver Script.answer arrived, awaited.length)

def Desk.addLine (d : Desk Script) (l : Line) : Desk Script :=
  { d with backend := { d.backend with lines := d.backend.lines ++ [l] } }

end Console
end MfaConsole
