import MfaConsole.Json.Basic

/-! Reading records from JSON. A record stands either as an object, whose members are found by name and whose
    unknown members count for nothing, or as the list of its fields in their order. Nothing is converted: a text
    is no number, a double no whole number, and a whole number has to fit its type. -/

namespace MfaConsole
namespace Wire

/-- Reads a value of `α`, or refuses. -/
abbrev Reader (α : Type) := Json → Option α

/-- The fields of a record as they stand: named members, or a list in the order of the fields. -/
inductive Fields where
  | named (members : List (String × Json))
  | listed (items : List Json)

/-- The fields of a record that has `count` of them; a longer list is no such record. -/
def Fields.of? (count : Nat) : Json → Option Fields
  | .object members => some (.named members)
  | .array items => if items.length ≤ count then some (.listed items) else none
  | _ => none

/-- The field of a name, which stands at `place` in a list. -/
def Fields.find? (f : Fields) (place : Nat) (name : String) : Option Json :=
  match f with
  | .named members => members.lookup name
  | .listed items => items[place]?

def Fields.required {α : Type} (f : Fields) (place : Nat) (name : String) (read : Reader α) : Option α :=
  (f.find? place name).bind read

def Fields.withDefault {α : Type} (f : Fields) (place : Nat) (name : String) (default : α) (read : Reader α) :
    Option α :=
  match f.find? place name with
  | some v => read v
  | none => some default

def nullable {α : Type} (read : Reader α) : Reader (Option α)
  | .null => some none
  | v => (read v).map some

/-- A field that may be null, and absent from an object but not from a list. -/
def Fields.optional {α : Type} (f : Fields) (place : Nat) (name : String) (read : Reader α) : Option (Option α) :=
  match f.find? place name, f with
  | some v, _ => nullable read v
  | none, .named _ => some none
  | none, .listed _ => none

def anything : Reader Json := some

def text : Reader String := Json.string?

def truth : Reader Bool
  | .bool b => some b
  | _ => none

/-- A whole number of 64 bits with a sign. -/
def int64 : Reader Int64
  | .integer n => if Int64.minValue.toInt ≤ n ∧ n ≤ Int64.maxValue.toInt then some (Int64.ofInt n) else none
  | _ => none

/-- A whole number of 64 bits without a sign. -/
def uint64 : Reader UInt64
  | .integer n => if 0 ≤ n ∧ n < UInt64.size then some (UInt64.ofNat n.toNat) else none
  | _ => none

def listOf {α : Type} (read : Reader α) : Reader (List α)
  | .array items => items.mapM read
  | _ => none

/-- The members of an object, each read. -/
def members {α : Type} (read : Reader α) (ms : List (String × Json)) : Option (List (String × α)) :=
  ms.mapM fun m => (read m.2).map fun v => (m.1, v)

def mapOf {α : Type} (read : Reader α) : Reader (KeyMap α)
  | .object ms => (members read ms).map KeyMap.ofList
  | _ => none

/-- A whole number of 64 bits with a sign, as JSON. -/
def ofInt64 (n : Int64) : Json := .integer n.toInt

/-- A value or null, as JSON. -/
def ofNullable {α : Type} (write : α → Json) (v : Option α) : Json := v.elim .null write

/-- A list, as JSON. -/
def ofList {α : Type} (write : α → Json) (vs : List α) : Json := .array (vs.map write)

/-- A map, as JSON. -/
def ofMap {α : Type} (write : α → Json) (m : KeyMap α) : Json := Json.ofMap (m.mapValues write)

def memberIfSome {α : Type} (name : String) (write : α → Json) (v : Option α) : List (String × Json) :=
  v.elim [] fun a => [(name, write a)]

end Wire
end MfaConsole
