import MfaConsole.Number.Digits
import MfaConsole.Text.Blank
import MfaConsole.Text.Pieces

/-! Dates in the headers of messages. A date is written in one of three layouts, of which `Sun, 06 Nov 1994 08:49:37
    GMT` is the common one. A date that the calendar does not have, or that names the wrong day of the week, is
    none. -/

namespace MfaConsole
namespace Host

/-- A date and time, to the second. -/
structure Date where
  /-- Monday is one, Sunday is seven. -/
  weekday : Nat
  day : Nat
  month : Nat
  year : Nat
  hour : Nat
  minute : Nat
  second : Nat
  deriving DecidableEq, Repr

namespace Date

def leapYears (year : Nat) : Nat := year / 4 - year / 100 + year / 400

def isLeap (year : Nat) : Bool := leapYears year != leapYears (year - 1)

def monthLengths (year : Nat) : List Nat :=
  [31, if isLeap year then 29 else 28, 31, 30, 31, 30, 31, 31, 30, 31, 30, 31]

def firstYear : Nat := 1970

variable (d : Date)

/-- How many days have passed since the beginning of the first year. -/
def days : Nat :=
  (d.year - firstYear) * 365 + (leapYears (d.year - 1) - leapYears (firstYear - 1)) +
    ((monthLengths d.year).take (d.month - 1)).foldl (· + ·) (d.day - 1)

/-- How many seconds have passed since the beginning of the first year. -/
def seconds : Nat := ((d.days * 24 + d.hour) * 60 + d.minute) * 60 + d.second

/-- Whether the calendar has the date. The first year began on a Thursday. -/
def isSound : Bool :=
  firstYear ≤ d.year && 1 ≤ d.month && d.month ≤ 12 && 1 ≤ d.day &&
    d.day ≤ (monthLengths d.year).getD (d.month - 1) 0 && d.hour < 24 && d.minute < 60 && d.second < 60 &&
    d.weekday = (d.days + 3) % 7 + 1

/-- A part of the layout of a date. -/
inductive Part where
  /-- One of some names, which stands for its place among them. -/
  | name (names : List String)
  | digits (count : Nat)
  /-- A number of two digits, of which the first may be a blank instead. -/
  | padded
  | mark (text : String)

/-- The number that stands at the beginning of a text in just so many digits, and the rest. -/
def digits? (count : Nat) (cs : List Char) : Option (Nat × List Char) :=
  let ds := cs.take count
  if ds.length = count ∧ ds.all Char.isDigit then some (Number.digitsValue ds, cs.drop count) else none

/-- The numbers that the parts of a layout stand for in a text, which has to end with the layout. -/
def read? : List Part → List Char → Option (List Nat)
  | [], cs => if cs = [] then some [] else none
  | .mark text :: parts, cs => (Text.after? text.toList cs).bind (read? parts)
  | .digits count :: parts, cs => (digits? count cs).bind fun r => (read? parts r.2).map (r.1 :: ·)
  | .padded :: parts, cs =>
    let number := match cs with
      | ' ' :: rest => digits? 1 rest
      | cs => digits? 2 cs
    number.bind fun r => (read? parts r.2).map (r.1 :: ·)
  | .name names :: parts, cs =>
    match names.findIdx? fun n => (Text.after? n.toList cs).isSome with
    | none => none
    | some i => (read? parts (cs.drop (names.getD i "").length)).map ((i + 1) :: ·)

def weekdays : List String := ["Monday", "Tuesday", "Wednesday", "Thursday", "Friday", "Saturday", "Sunday"]

def shortWeekdays : List String := ["Mon", "Tue", "Wed", "Thu", "Fri", "Sat", "Sun"]

def months : List String :=
  ["Jan", "Feb", "Mar", "Apr", "May", "Jun", "Jul", "Aug", "Sep", "Oct", "Nov", "Dec"]

def timeLayout : List Part := [.digits 2, .mark ":", .digits 2, .mark ":", .digits 2]

/-- A date such as `Sun, 06 Nov 1994 08:49:37 GMT`. -/
def ofCommon? (cs : List Char) : Option Date :=
  match read? ([.name shortWeekdays, .mark ", ", .digits 2, .mark " ", .name months, .mark " ", .digits 4, .mark " "]
      ++ timeLayout ++ [.mark " GMT"]) cs with
  | some [weekday, day, month, year, hour, minute, second] =>
    some { weekday, day, month, year, hour, minute, second }
  | _ => none

/-- A date such as `Sunday, 06-Nov-94 08:49:37 GMT`. Two digits of a year stand for one from 1970 to 2069. -/
def ofDashed? (cs : List Char) : Option Date :=
  match read? ([.name weekdays, .mark ", ", .digits 2, .mark "-", .name months, .mark "-", .digits 2, .mark " "]
      ++ timeLayout ++ [.mark " GMT"]) cs with
  | some [weekday, day, month, year, hour, minute, second] =>
    some { weekday, day, month, year := if year < 70 then 2000 + year else 1900 + year, hour, minute, second }
  | _ => none

/-- A date such as `Sun Nov  6 08:49:37 1994`. -/
def ofPadded? (cs : List Char) : Option Date :=
  match read? ([.name shortWeekdays, .mark " ", .name months, .mark " ", .padded, .mark " "] ++ timeLayout
      ++ [.mark " ", .digits 4]) cs with
  | some [weekday, month, day, hour, minute, second, year] =>
    some { weekday, day, month, year, hour, minute, second }
  | _ => none

/-- The date that a text stands for, with blanks around it or not. -/
def ofText? (text : List Char) : Option Date :=
  let cs := Text.trimChars text
  ((ofCommon? cs).or <| (ofDashed? cs).or (ofPadded? cs)).filter isSound

end Date
end Host
end MfaConsole
