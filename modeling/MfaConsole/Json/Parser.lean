import MfaConsole.Json.Lexer

/-! JSON text to values. The containers that are still open stand in a list, so the nesting is its length; a text
    that nests deeper than the limit is refused. An object is first read with its members as they are written, and
    then brought into the order of its keys; of two members of one key the later one counts. -/

namespace MfaConsole
namespace Json

/-- A container part way through, with what it holds so far in reverse order. -/
inductive Frame where
  | items (before : List Json)
  | members (before : List (String × Json)) (key : String)

/-- What may come next: a value, a key, the colon after a key, what follows a value within a container, or
    nothing after the outermost value. A container just opened may also end where its first part is due. -/
inductive Due where
  | value (mayEnd : Bool)
  | key (mayEnd : Bool)
  | colon
  | separator
  | nothing (v : Json)

/-- The containers still open, innermost first, and what is due. -/
structure Reading where
  frames : List Frame
  due : Due

namespace Reading

def complete (v : Json) : List Frame → Reading
  | [] => ⟨[], .nothing v⟩
  | .items before :: fs => ⟨.items (v :: before) :: fs, .separator⟩
  | .members before key :: fs => ⟨.members ((key, v) :: before) key :: fs, .separator⟩

/-- A container begins, if no more than `limit` are then open. -/
def open? (limit : Nat) (f : Frame) (due : Due) (fs : List Frame) : Option Reading :=
  if fs.length < limit then some ⟨f :: fs, due⟩ else none

def mark? (limit : Nat) (r : Reading) (c : Char) : Option Reading :=
  match r.due, r.frames with
  | .value mayEnd, fs =>
    if c = '[' then open? limit (.items []) (.value true) fs
    else if c = '\x7b' then open? limit (.members [] "") (.key true) fs
    else match fs with
      | .items before :: fs => if c = ']' ∧ mayEnd then some (complete (.array before.reverse) fs) else none
      | _ => none
  | .key mayEnd, .members before _ :: fs =>
    if c = '\x7d' ∧ mayEnd then some (complete (.object before.reverse) fs) else none
  | .colon, fs => if c = ':' then some ⟨fs, .value false⟩ else none
  | .separator, .items before :: fs =>
    if c = ',' then some ⟨.items before :: fs, .value false⟩
    else if c = ']' then some (complete (.array before.reverse) fs)
    else none
  | .separator, .members before key :: fs =>
    if c = ',' then some ⟨.members before key :: fs, .key false⟩
    else if c = '\x7d' then some (complete (.object before.reverse) fs)
    else none
  | _, _ => none

def token? (limit : Nat) (r : Reading) : Token → Option Reading
  | .mark c => r.mark? limit c
  | .plain v =>
    match r.due with
    | .value _ => some (complete v r.frames)
    | _ => none
  | .text s =>
    match r.due, r.frames with
    | .value _, fs => some (complete (.string s) fs)
    | .key _, .members before _ :: fs => some ⟨.members before s :: fs, .colon⟩
    | _, _ => none

end Reading

mutual

/-- The value with the members of every object in the order of their keys, each key once. -/
def ordered : Json → Json
  | .array items => .array (orderedItems items)
  | .object members => ofMembers (orderedMembers members)
  | v => v

/-- The items, each ordered. -/
def orderedItems : List Json → List Json
  | [] => []
  | v :: vs => ordered v :: orderedItems vs

/-- The members as they stand, each value ordered. -/
def orderedMembers : List (String × Json) → List (String × Json)
  | [] => []
  | (k, v) :: ms => (k, ordered v) :: orderedMembers ms

end

/-- The value of a text whose containers nest no deeper than `limit`, with every member as it is written. -/
def parseWritten? (limit : Nat) (s : String) : Option Json := do
  let tokens ← tokens? s
  let r ← tokens.foldlM (Reading.token? limit) ⟨[], .value false⟩
  match r.due with
  | .nothing v => some v
  | _ => none

/-- The value of a text whose containers nest no deeper than `limit`. -/
def parseWithin? (limit : Nat) (s : String) : Option Json :=
  (parseWritten? limit s).map ordered

def nestingLimit : Nat := 127

def parse? (s : String) : Option Json := parseWithin? nestingLimit s

end Json
end MfaConsole
