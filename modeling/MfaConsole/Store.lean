/-! A value that watchers follow. Every update calls the watchers registered before it, in the order of their
    registration, with the value right after the update. A watcher may itself update the value, register watchers
    or remove them; what it asks for is done before the next watcher is called, so an update made by a watcher is
    told to all watchers while the first one is still being told. -/

namespace MfaConsole

/-- What a watcher asks for: an update, the removal of a watcher, or a further watcher. A watcher is given its own
    number and the value of the update. -/
inductive Command (σ : Type) where
  | update (f : σ → σ)
  | unwatch (id : Nat)
  | watch (react : Nat → σ → List (Command σ))

/-- What a watcher asks for when it is called with its own number and a value. -/
abbrev Reaction (σ : Type) := Nat → σ → List (Command σ)

def Reaction.quiet {σ : Type} : Reaction σ := fun _ _ => []

/-- A value with its watchers in the order of registration, each with its number, and the next number. -/
structure Store (σ : Type) where
  value : σ
  watchers : List (Nat × Reaction σ)
  nextId : Nat

/-- One call of a watcher: its number, the value it was called with, and the value of the store at that moment. -/
structure Delivery (σ : Type) where
  watcher : Nat
  snapshot : σ
  current : σ

namespace Store
variable {σ : Type}

/-- A store without watchers. -/
def ofValue (value : σ) : Store σ := { value, watchers := [], nextId := 0 }

/-- A further watcher, and its number. -/
def watch (s : Store σ) (react : Reaction σ) : Store σ × Nat :=
  ({ s with watchers := s.watchers ++ [(s.nextId, react)], nextId := s.nextId + 1 }, s.nextId)

def unwatch (s : Store σ) (id : Nat) : Store σ :=
  { s with watchers := s.watchers.filter fun w => w.1 ≠ id }

def isWatched (s : Store σ) (id : Nat) : Bool := s.watchers.any fun w => w.1 = id

def watcherCount (s : Store σ) : Nat := s.watchers.length

/-- The store after something was done to it, with the calls made meanwhile; none if updates within updates went
    too deep. -/
abbrev Run (σ : Type) := Option (Store σ × List (Delivery σ))

/-- The commands are carried out one after the other, updates as `change` says. -/
def carryOut (change : (σ → σ) → Store σ → Run σ) : List (Command σ) → Store σ → Run σ
  | [], s => some (s, [])
  | .unwatch id :: cs, s => carryOut change cs (s.unwatch id)
  | .watch react :: cs, s => carryOut change cs (s.watch react).1
  | .update f :: cs, s =>
    (change f s).bind fun r => (carryOut change cs r.1).map fun q => (q.1, r.2 ++ q.2)

/-- The watchers are called one after the other with `snapshot`, and what each asks for is carried out before the
    next is called. -/
def deliver (change : (σ → σ) → Store σ → Run σ) (snapshot : σ) : List (Nat × Reaction σ) → Store σ → Run σ
  | [], s => some (s, [])
  | w :: ws, s =>
    (carryOut change (w.2 w.1 snapshot) s).bind fun r => (deliver change snapshot ws r.1).map fun q =>
      (q.1, { watcher := w.1, snapshot, current := s.value } :: r.2 ++ q.2)

/-- The value is changed and the watchers are told, with updates within updates at most `depth` deep. -/
def update : (depth : Nat) → (σ → σ) → Store σ → Run σ
  | 0, _, _ => none
  | depth + 1, f, s => deliver (update depth) (f s.value) s.watchers { s with value := f s.value }

def set (depth : Nat) (value : σ) (s : Store σ) : Run σ := update depth (fun _ => value) s

end Store
end MfaConsole
