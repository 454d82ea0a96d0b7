/-! The bus on which parts of the console tell each other what happened. Each subscriber has a mailbox for the
    events of one topic; whoever publishes only fills mailboxes and never runs a subscriber. A mailbox whose
    subscriber is gone stays on the bus's list until the next event is published. -/

namespace MfaConsole

/-- What a subscriber listens to. -/
inductive Topic where
  /-- Every view shown reads its data again. -/
  | reload
  | sessionExpired
  deriving DecidableEq, Repr

/-- What happened. -/
inductive Event where
  | reload
  | sessionExpired (status : Nat)
  deriving DecidableEq, Repr

def Event.topic : Event → Topic
  | .reload => .reload
  | .sessionExpired _ => .sessionExpired

/-- The mailbox of one subscriber: the events not yet taken, oldest first, and whether the subscriber is there. -/
structure Mailbox where
  topic : Topic
  queue : List Event
  live : Bool
  deriving DecidableEq, Repr

def Mailbox.put (m : Mailbox) (e : Event) : Mailbox := { m with queue := m.queue ++ [e] }

/-- The bus: all mailboxes there ever were, by number, the numbers of those the bus still knows, oldest first,
    and whether anyone can still publish. -/
structure Bus where
  mailboxes : List Mailbox
  known : List Nat
  isOpen : Bool
  deriving DecidableEq, Repr

/-- What waiting for the next event comes to. -/
inductive Taken where
  | event (e : Event)
  | pending
  | closed
  deriving DecidableEq, Repr

namespace Bus

/-- The bus without subscribers. -/
def empty : Bus := { mailboxes := [], known := [], isOpen := true }

instance : Inhabited Bus := ⟨empty⟩

/-- The mailbox of a number, if its subscriber is there. -/
def live? (b : Bus) (i : Nat) : Option Mailbox := b.mailboxes[i]?.filter (·.live)

/-- A new subscriber, and the number of its mailbox. -/
def subscribe (b : Bus) (topic : Topic) : Bus × Nat :=
  ({ b with mailboxes := b.mailboxes ++ [{ topic, queue := [], live := true }],
            known := b.known ++ [b.mailboxes.length] },
   b.mailboxes.length)

def reached (b : Bus) (e : Event) (i : Nat) : Bool :=
  (b.live? i).any fun m => m.topic == e.topic

/-- The event is put into the mailbox of every live subscriber of its topic, and mailboxes without a subscriber
    are forgotten. The number is that of the subscribers reached. -/
def publish (b : Bus) (e : Event) : Bus × Nat :=
  let reached := b.known.filter (b.reached e)
  ({ b with mailboxes := reached.foldl (fun ms i => ms.modify i (·.put e)) b.mailboxes,
            known := b.known.filter fun i => (b.live? i).isSome },
   reached.length)

/-- Every view shown is told to read its data again. -/
def reload (b : Bus) : Bus × Nat := b.publish .reload

def subscriberCount (b : Bus) : Nat :=
  (b.known.filter fun i => (b.live? i).isSome).length

/-- The subscriber of a number leaves, and what is in its mailbox goes with it. -/
def unsubscribe (b : Bus) (i : Nat) : Bus :=
  { b with mailboxes := b.mailboxes.modify i fun m => { m with queue := [], live := false } }

def close (b : Bus) : Bus := { b with known := [], isOpen := false }

/-- The oldest event of a mailbox is taken out, if there is one. -/
def take (b : Bus) (i : Nat) : Bus × Option Event :=
  match b.live? i with
  | none => (b, none)
  | some m =>
    match m.queue with
    | [] => (b, none)
    | e :: rest => ({ b with mailboxes := b.mailboxes.set i { m with queue := rest } }, some e)

def next (b : Bus) (i : Nat) : Bus × Taken :=
  match b.take i with
  | (b, some e) => (b, .event e)
  | (b, none) => (b, if b.isOpen then .pending else .closed)

end Bus
end MfaConsole
