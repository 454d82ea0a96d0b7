import MfaConsole.KeyMap
import MfaConsole.Number.Double

/-! JSON values. Whole numbers and doubles are different values, so `1` and `1.0` differ. -/

namespace MfaConsole

/-- A JSON value. -/
inductive Json where
  | null
  | bool (b : Bool)
  | integer (n : Int)
  | double (x : Number.Double)
  | string (s : String)
  | array (items : List Json)
  | object (members : List (String × Json))
  deriving Inhabited

namespace Json

mutual

def same : Json → Json → Bool
  | .null, .null => true
  | .bool a, .bool b => a == b
  | .integer a, .integer b => a == b
  | .double a, .double b => a == b
  | .string a, .string b => a == b
  | .array as, .array bs => sameItems as bs
  | .object as, .object bs => sameMembers as bs
  | _, _ => false

def sameItems : List Json → List Json → Bool
  | [], [] => true
  | a :: as, b :: bs => same a b && sameItems as bs
  | _, _ => false

def sameMembers : List (String × Json) → List (String × Json) → Bool
  | [], [] => true
  | (k, a) :: as, (l, b) :: bs => k == l && same a b && sameMembers as bs
  | _, _ => false

end

instance : BEq Json := ⟨same⟩

def ofMap (m : KeyMap Json) : Json := .object m.entries

/-- The object of the members, in the order of their keys; of two members of one key the later one counts. -/
def ofMembers (members : List (String × Json)) : Json := ofMap (KeyMap.ofList members)

def ofOption (s : Option String) : Json := s.elim .null .string

def get? : Json → String → Option Json
  | .object members, key => members.lookup key
  | _, _ => none

theorem get?_eq_some_iff {j v : Json} {key : String} :
    j.get? key = some v ↔ ∃ members, j = .object members ∧ members.lookup key = some v := by
  cases j <;> simp [get?]

def string? : Json → Option String
  | .string s => some s
  | _ => none

theorem string?_eq_some_iff {j : Json} {s : String} : j.string? = some s ↔ j = .string s := by
  cases j <;> simp [string?]

end Json
end MfaConsole
