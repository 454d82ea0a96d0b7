/-! The queue of notices shown to the administrator. A notice stays until it is dismissed by its number, and
    numbers are never used again. -/

namespace MfaConsole

/-- What kind of notice it is. -/
inductive NoticeKind where
  | info
  | error
  deriving DecidableEq, Repr

/-- A notice. -/
structure Notice where
  id : Nat
  kind : NoticeKind
  message : String
  deriving DecidableEq, Repr

/-- The notices shown, oldest first, and the number of the next one. -/
structure Notices where
  items : List Notice
  nextId : Nat
  deriving DecidableEq, Repr

namespace Notices

def empty : Notices := { items := [], nextId := 0 }

instance : Inhabited Notices := ⟨empty⟩

/-- A further notice; its number is `nextId`. -/
def add (kind : NoticeKind) (message : String) (n : Notices) : Notices :=
  { items := n.items ++ [{ id := n.nextId, kind, message }], nextId := n.nextId + 1 }

/-- The notice of a number is removed; a number that no notice has changes nothing. -/
def dismiss (id : Nat) (n : Notices) : Notices :=
  { n with items := n.items.filter fun i => i.id ≠ id }

/-- What is asked of the queue. -/
inductive Deed where
  | add (kind : NoticeKind) (message : String)
  | dismiss (id : Nat)
  deriving DecidableEq, Repr

/-- The queue after a deed, and the number that it answers with. -/
def perform (n : Notices) : Deed → Notices × Option Nat
  | .add kind message => (n.add kind message, some n.nextId)
  | .dismiss id => (n.dismiss id, none)

end Notices

def NoticeKind.leavesByItself (k : NoticeKind) : Bool := k = .info

end MfaConsole
