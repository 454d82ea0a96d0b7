import MfaConsole.Number.Digits
import MfaConsole.Text.Blank
import MfaConsole.Text.Pieces

/-! Parts of a content that a request asks for by octets: `bytes=0-9` for the first ten, `bytes=10-` for the rest
    after them, `bytes=-5` for the last five. Only one part at a time is answered. -/

namespace MfaConsole
namespace Host

/-- A part as it is asked for. -/
inductive ByteRange where
  /-- The octets from one to another, or to the end. -/
  | between (first : Nat) (last : Option Nat)
  | ending (count : Nat)
  deriving DecidableEq, Repr

namespace ByteRange

def unit : String := "bytes="

/-- A number without a zero before it, of at most 64 bits. -/
def number? (ds : List Char) : Option Nat :=
  let n := Number.digitsValue ds
  if ds ≠ [] ∧ ds.all Char.isDigit ∧ (ds.length = 1 ∨ ds.head? ≠ some '0') ∧ n < UInt64.size then some n else none

/-- A range without the blank that may stand before it. -/
def withoutBlank? (cs : List Char) : Option (List Char) :=
  if cs.countP Text.isBlank ≤ 1 ∧ !cs.getLast?.any Text.isBlank then some (Text.trimChars cs) else none

/-- One range: two numbers with a dash between them, of which one may be left out. There is no range of no octets
    at the end. -/
def ofChars? (cs : List Char) : Option ByteRange :=
  match Text.pieces '-' cs with
  | [[], count] => ((number? count).filter (· ≠ 0)).map .ending
  | [first, []] => (number? first).map fun n => .between n none
  | [first, last] => (number? first).bind fun n => (number? last).map fun m => .between n (some m)
  | _ => none

/-- The ranges that a header asks for, in its order. -/
def parse? (header : List Char) : Option (List ByteRange) :=
  match Text.after? unit.toList header with
  | none => none
  | some rest =>
    if rest.head?.any Text.isBlank then none
    else (Text.pieces ',' rest).mapM fun cs => (withoutBlank? cs).bind ofChars?

/-- The first and the last octet of a range in a content of a size. A range may reach beyond the end, but not begin
    there; in a content without octets a range from the beginning is allowed. -/
def resolve? (size : Nat) (r : ByteRange) : Option (Nat × Nat) :=
  let range? := match r with
    | .between first last => some (first, min (last.getD (size - 1)) (size - 1))
    | .ending count => if count ≤ size then some (size - count, size - 1) else none
  range?.filter fun r => r.1 ≤ r.2

def overlap (a b : Nat × Nat) : Bool := a.1 ≤ b.2 && b.1 ≤ a.2

/-- Which part of a content is answered. -/
inductive Selection where
  | whole
  | part (first last : Nat)
  /-- There are several parts, none of them in another. -/
  | several
  /-- What is asked for is not there or cannot be read. -/
  | notThere
  deriving DecidableEq, Repr

def select (size : Nat) (header : Option (List Char)) : Selection :=
  match header with
  | none => .whole
  | some header =>
    match (parse? header).bind fun rs => rs.mapM (resolve? size) with
    | some [r] => .part r.1 r.2
    | some rs => if rs.Pairwise (fun a b => !overlap a b) then .several else .notThere
    | none => .notThere

end ByteRange
end Host
end MfaConsole
