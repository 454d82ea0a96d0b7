import Mathlib.Data.List.Pairwise
import MfaConsole.Store

/-! What the watchers of a store are told last. Every update is told to all watchers, but one that a watcher makes is
    told while an earlier one is still being told, and the watchers after it hear of the earlier one late. No watcher
    misses the last update; it is left behind where an earlier one is told to it after that. -/

namespace MfaConsole
namespace Store

variable {σ : Type}

/-! ### The last call of a watcher -/

def lastCall? (id : Nat) (calls : List (Delivery σ)) : Option (Delivery σ) :=
  (calls.filter fun d => d.watcher = id).getLast?

theorem lastCall?_append (id : Nat) (calls more : List (Delivery σ)) :
    lastCall? id (calls ++ more) = (lastCall? id more).or (lastCall? id calls) := by
  rw [lastCall?, List.filter_append, List.getLast?_append, lastCall?, lastCall?]

theorem lastCall?_eq_none_iff {id : Nat} {calls : List (Delivery σ)} :
    lastCall? id calls = none ↔ ∀ d ∈ calls, d.watcher ≠ id := by
  simp [lastCall?]

theorem mem_of_lastCall? {id : Nat} {calls : List (Delivery σ)} {d : Delivery σ} (h : lastCall? id calls = some d) :
    d ∈ calls ∧ d.watcher = id := by
  simpa using List.mem_filter.mp (List.mem_of_getLast? h)

/-! ### What watchers can bring about -/

theorem isWatched_iff {s : Store σ} {id : Nat} : s.isWatched id = true ↔ ∃ w ∈ s.watchers, w.1 = id := by
  simp [isWatched]

/-- Whatever holds of nothing being done, of each thing that a watcher may ask for, and of one thing done after another,
    holds of all that a watcher asks for. -/
structure Composes (P : Store σ → List (Delivery σ) → Store σ → Prop) : Prop where
  refl : ∀ s, P s [] s
  trans : ∀ {a b c calls more}, P a calls b → P b more c → P a (calls ++ more) c
  unwatch : ∀ s id, P s [] (s.unwatch id)
  watch : ∀ s react, P s [] (s.watch react).1

theorem Composes.carryOut {P : Store σ → List (Delivery σ) → Store σ → Prop} (h : Composes P)
    {change : (σ → σ) → Store σ → Run σ} (changes : ∀ {f s r}, change f s = some r → P s r.2 r.1) :
    ∀ {cs : List (Command σ)} {s : Store σ} {r}, carryOut change cs s = some r → P s r.2 r.1
  | [], s, r, hr => by
    cases hr
    exact h.refl s
  | .unwatch id :: cs, s, r, hr => h.trans (h.unwatch s id) (h.carryOut changes hr)
  | .watch react :: cs, s, r, hr => h.trans (h.watch s react) (h.carryOut changes hr)
  | .update f :: cs, s, r, hr => by
    obtain ⟨told, changed, hr⟩ := Option.bind_eq_some_iff.mp hr
    obtain ⟨rest, done, rfl⟩ := Option.map_eq_some_iff.mp hr
    exact h.trans (changes changed) (h.carryOut changes done)

/-- The numbers of the watchers are those in the order of registration, and none of them is given again. -/
structure Numbered (s : Store σ) : Prop where
  increasing : s.watchers.Pairwise fun a b => a.1 < b.1
  lt : ∀ w ∈ s.watchers, w.1 < s.nextId

theorem Numbered.unwatch {s : Store σ} (h : s.Numbered) (id : Nat) : (s.unwatch id).Numbered :=
  ⟨h.increasing.filter _, fun w hw => h.lt w (List.mem_filter.mp hw).1⟩

theorem Numbered.watch {s : Store σ} (h : s.Numbered) (react : Reaction σ) : (s.watch react).1.Numbered where
  increasing := by
    refine List.pairwise_append.mpr ⟨h.increasing, List.pairwise_singleton _ _, fun a ha b hb => ?_⟩
    rw [List.mem_singleton.mp hb]
    exact h.lt a ha
  lt w hw := by
    rcases List.mem_append.mp hw with hw | hw
    · exact Nat.lt_succ_of_lt (h.lt w hw)
    · rw [List.mem_singleton.mp hw]
      exact Nat.lt_succ_self _

/-! ### No watcher misses an update -/

/-- What is done to a store, and the calls made meanwhile: a watcher that is there at the end was last called when the
    store already had its final value, or it was not called and the value is what it was. -/
structure Tells (s : Store σ) (calls : List (Delivery σ)) (s' : Store σ) : Prop where
  numbered : s'.Numbered
  nextId_le : s.nextId ≤ s'.nextId
  known : ∀ d ∈ calls, d.watcher < s'.nextId
  stayed : ∀ {id}, id < s.nextId → s'.isWatched id = true → s.isWatched id = true
  last : ∀ {id d}, s'.isWatched id = true → lastCall? id calls = some d → d.current = s'.value
  untold : ∀ {id}, id < s.nextId → s'.isWatched id = true → (∀ d ∈ calls, d.watcher ≠ id) → s'.value = s.value

namespace Tells
variable {a b c s : Store σ} {calls more : List (Delivery σ)}

theorem refl (h : s.Numbered) : Tells s [] s :=
  ⟨h, Nat.le_refl _, fun _ hd => absurd hd List.not_mem_nil, fun _ => id, fun _ hd => (nomatch hd), fun _ _ _ => rfl⟩

theorem trans (h : Tells a calls b) (k : Tells b more c) : Tells a (calls ++ more) c where
  numbered := k.numbered
  nextId_le := Nat.le_trans h.nextId_le k.nextId_le
  known d hd := by
    rcases List.mem_append.mp hd with hd | hd
    · exact Nat.lt_of_lt_of_le (h.known d hd) k.nextId_le
    · exact k.known d hd
  stayed lt watched := h.stayed lt (k.stayed (Nat.lt_of_lt_of_le lt h.nextId_le) watched)
  last {id d} watched hd := by
    rw [lastCall?_append] at hd
    cases hm : lastCall? id more with
    | some e =>
      rw [hm, Option.some_or] at hd
      cases hd
      exact k.last watched hm
    | none =>
      rw [hm, Option.none_or] at hd
      obtain ⟨mem, rfl⟩ := mem_of_lastCall? hd
      -- It was there when it was called, so that its number is not one given later.
      have there := k.stayed (h.known d mem) watched
      rw [k.untold (h.known d mem) watched (lastCall?_eq_none_iff.mp hm)]
      exact h.last there hd
  untold {id} lt watched none := by
    have lt' := Nat.lt_of_lt_of_le lt h.nextId_le
    rw [k.untold lt' watched fun d hd => none d (List.mem_append_right _ hd)]
    exact h.untold lt (k.stayed lt' watched) fun d hd => none d (List.mem_append_left _ hd)

theorem called (h : s.Numbered) {id : Nat} (known : id < s.nextId) (snapshot : σ) :
    Tells s [{ watcher := id, snapshot, current := s.value }] s where
  numbered := h
  nextId_le := Nat.le_refl _
  known d hd := by
    rw [List.mem_singleton.mp hd]
    exact known
  stayed _ watched := watched
  last _ hd := by
    obtain ⟨mem, -⟩ := mem_of_lastCall? hd
    rw [List.mem_singleton.mp mem]
  untold _ _ _ := rfl

theorem unwatch (h : s.Numbered) (id : Nat) : Tells s [] (s.unwatch id) where
  numbered := h.unwatch id
  nextId_le := Nat.le_refl _
  known d hd := absurd hd List.not_mem_nil
  stayed _ watched := by
    obtain ⟨w, hw, rfl⟩ := isWatched_iff.mp watched
    exact isWatched_iff.mpr ⟨w, (List.mem_filter.mp hw).1, rfl⟩
  last _ hd := nomatch hd
  untold _ _ _ := rfl

theorem watch (h : s.Numbered) (react : Reaction σ) : Tells s [] (s.watch react).1 where
  numbered := h.watch react
  nextId_le := Nat.le_succ _
  known d hd := absurd hd List.not_mem_nil
  stayed lt watched := by
    obtain ⟨w, hw, rfl⟩ := isWatched_iff.mp watched
    rcases List.mem_append.mp hw with hw | hw
    · exact isWatched_iff.mpr ⟨w, hw, rfl⟩
    · rw [List.mem_singleton.mp hw] at lt
      exact absurd lt (Nat.lt_irrefl _)
  last _ hd := nomatch hd
  untold _ _ _ := rfl

theorem composes : Composes fun (s : Store σ) calls s' => s.Numbered → Tells s calls s' where
  refl _ := refl
  trans h k numbered := (h numbered).trans (k (h numbered).numbered)
  unwatch _ id h := unwatch h id
  watch _ react h := watch h react

end Tells

section Deliver
variable {change : (σ → σ) → Store σ → Run σ} {snapshot : σ}

theorem deliver_cons_inv {w : Nat × Reaction σ} {ws : List (Nat × Reaction σ)} {s : Store σ} {r}
    (h : deliver change snapshot (w :: ws) s = some r) : ∃ carried rest,
      carryOut change (w.2 w.1 snapshot) s = some carried ∧ deliver change snapshot ws carried.1 = some rest ∧
      r = (rest.1, { watcher := w.1, snapshot, current := s.value } :: carried.2 ++ rest.2) := by
  obtain ⟨carried, asked, h⟩ := Option.bind_eq_some_iff.mp h
  obtain ⟨rest, delivered, eq⟩ := Option.map_eq_some_iff.mp h
  exact ⟨carried, rest, asked, delivered, eq.symm⟩

theorem called_of_deliver : ∀ {ws : List (Nat × Reaction σ)} {s : Store σ} {r}, deliver change snapshot ws s = some r →
    ∀ w ∈ ws, ∃ d ∈ r.2, d.watcher = w.1
  | [], _, _, _ => fun _ hw => absurd hw List.not_mem_nil
  | w :: ws, s, r, hr => by
    obtain ⟨carried, rest, -, delivered, rfl⟩ := deliver_cons_inv hr
    rintro x (_ | ⟨_, hx⟩)
    · exact ⟨_, List.mem_cons_self, rfl⟩
    · obtain ⟨d, hd, same⟩ := called_of_deliver delivered x hx
      exact ⟨d, List.mem_cons_of_mem _ (List.mem_append_right _ hd), same⟩

theorem Tells.deliver (changes : ∀ {f s r}, change f s = some r → s.Numbered → Tells s r.2 r.1) :
    ∀ {ws : List (Nat × Reaction σ)} {s : Store σ} {r}, s.Numbered → (∀ w ∈ ws, w.1 < s.nextId) →
      deliver change snapshot ws s = some r → Tells s r.2 r.1
  | [], s, r, numbered, _, hr => by
    cases hr
    exact .refl numbered
  | w :: ws, s, r, numbered, known, hr => by
    obtain ⟨carried, rest, asked, delivered, rfl⟩ := deliver_cons_inv hr
    have call := Tells.called numbered (known w List.mem_cons_self) snapshot
    have reaction := Tells.composes.carryOut changes asked numbered
    have others := Tells.deliver changes reaction.numbered
      (fun x hx => Nat.lt_of_lt_of_le (known x (List.mem_cons_of_mem _ hx)) reaction.nextId_le) delivered
    exact (call.trans reaction).trans others

end Deliver

theorem called_of_update {s : Store σ} : ∀ {depth : Nat} {f : σ → σ} {r}, update depth f s = some r →
    ∀ w ∈ s.watchers, ∃ d ∈ r.2, d.watcher = w.1
  | _ + 1, _, _, hr => called_of_deliver hr

theorem tells_update : ∀ {depth : Nat} {f : σ → σ} {s : Store σ} {r}, update depth f s = some r → s.Numbered →
    Tells s r.2 r.1
  | depth + 1, f, s, r, hr, numbered => by
    have changed : ({ s with value := f s.value } : Store σ).Numbered := ⟨numbered.increasing, numbered.lt⟩
    have told := Tells.deliver tells_update changed numbered.lt hr
    refine ⟨told.numbered, told.nextId_le, told.known, told.stayed, told.last, fun lt watched untold => ?_⟩
    -- A watcher from before the update cannot have been left out.
    obtain ⟨w, hw, rfl⟩ := isWatched_iff.mp (told.stayed lt watched)
    obtain ⟨d, hd, same⟩ := called_of_update hr w hw
    exact absurd same (untold d hd)

/-! ### Watchers behind others that make no updates -/

/-- A watcher that never asks for an update. -/
def NeverUpdates (react : Reaction σ) : Prop := ∀ id v, ∀ c ∈ react id v, ∀ f, c ≠ .update f

/-- No watcher before one of the number `id` asks for updates. -/
def Undisturbed (id : Nat) (ws : List (Nat × Reaction σ)) : Prop := ws.Pairwise fun a b => b.1 = id → NeverUpdates a.2

/-- Whenever a watcher is called, it is told the value that the store has. -/
def Timely (id : Nat) (calls : List (Delivery σ)) : Prop := ∀ d ∈ calls, d.watcher = id → d.snapshot = d.current

/-- What is done to a store leaves a watcher undisturbed, and tells it nothing late. -/
structure InTime (id : Nat) (calls : List (Delivery σ)) (s : Store σ) : Prop where
  lt : id < s.nextId
  undisturbed : Undisturbed id s.watchers
  timely : Timely id calls

theorem value_carryOut {change : (σ → σ) → Store σ → Run σ} : ∀ {cs : List (Command σ)} {s : Store σ} {r},
    (∀ c ∈ cs, ∀ f, c ≠ .update f) → carryOut change cs s = some r → r.1.value = s.value
  | [], s, r, _, hr => by
    cases hr
    rfl
  | .unwatch id :: cs, s, r, hc, hr =>
    value_carryOut (s := s.unwatch id) (fun c hm => hc c (List.mem_cons_of_mem _ hm)) hr
  | .watch react :: cs, s, r, hc, hr =>
    value_carryOut (s := (s.watch react).1) (fun c hm => hc c (List.mem_cons_of_mem _ hm)) hr
  | .update f :: cs, s, r, hc, hr => absurd rfl (hc _ List.mem_cons_self f)

namespace InTime
variable {id : Nat} {s : Store σ}

theorem composes (id : Nat) :
    Composes fun (s : Store σ) calls s' => id < s.nextId → Undisturbed id s.watchers → InTime id calls s' where
  refl _ lt free := ⟨lt, free, fun _ hd => absurd hd List.not_mem_nil⟩
  trans h k lt free := by
    have first := h lt free
    have second := k first.lt first.undisturbed
    refine ⟨second.lt, second.undisturbed, fun d hd => ?_⟩
    rcases List.mem_append.mp hd with hd | hd
    · exact first.timely d hd
    · exact second.timely d hd
  unwatch s other lt free := ⟨lt, free.filter _, fun _ hd => absurd hd List.not_mem_nil⟩
  watch s react lt free := by
    refine ⟨Nat.lt_succ_of_lt lt, ?_, fun _ hd => absurd hd List.not_mem_nil⟩
    refine List.pairwise_append.mpr ⟨free, List.pairwise_singleton _ _, fun a _ b hb same => ?_⟩
    -- A new watcher has a number of its own.
    rw [List.mem_singleton.mp hb] at same
    exact absurd same.symm (Nat.ne_of_lt lt)

variable {change : (σ → σ) → Store σ → Run σ} {snapshot : σ}

theorem deliver
    (changes : ∀ {f s r}, change f s = some r → id < s.nextId → Undisturbed id s.watchers → InTime id r.2 r.1) :
    ∀ {ws : List (Nat × Reaction σ)} {s : Store σ} {r}, id < s.nextId → Undisturbed id s.watchers → Undisturbed id ws →
      ((∃ w ∈ ws, w.1 = id) → s.value = snapshot) → deliver change snapshot ws s = some r → InTime id r.2 r.1
  | [], s, r, lt, free, _, _, hr => by
    cases hr
    exact (composes id).refl s lt free
  | w :: ws, s, r, lt, free, ahead, current, hr => by
    obtain ⟨carried, rest, asked, delivered, rfl⟩ := deliver_cons_inv hr
    have reaction := (composes id).carryOut changes asked lt free
    have others : InTime id rest.2 rest.1 := by
      refine deliver changes reaction.lt reaction.undisturbed ahead.of_cons (fun later => ?_) delivered
      obtain ⟨x, hx, same⟩ := later
      have quiet : NeverUpdates w.2 := List.rel_of_pairwise_cons ahead hx same
      -- So what this watcher asked for left the value as it was.
      rw [value_carryOut (quiet w.1 snapshot) asked]
      exact current ⟨x, List.mem_cons_of_mem _ hx, same⟩
    refine ⟨others.lt, others.undisturbed, ?_⟩
    rintro d (_ | ⟨_, hd⟩) same
    · exact (current ⟨w, List.mem_cons_self, same⟩).symm
    · rcases List.mem_append.mp hd with hd | hd
      · exact reaction.timely d hd same
      · exact others.timely d hd same

end InTime

theorem inTime_update {id : Nat} : ∀ {depth : Nat} {f : σ → σ} {s : Store σ} {r}, update depth f s = some r →
    id < s.nextId → Undisturbed id s.watchers → InTime id r.2 r.1
  | _ + 1, f, s, _, hr, lt, free =>
    InTime.deliver (s := { s with value := f s.value }) inTime_update lt free free (fun _ => rfl) hr

/-! ### Stores that come about -/

/-- A store begins with a value and without watchers; it is then watched, unwatched and updated. -/
inductive Reached : Store σ → Prop
  | start (value : σ) : Reached (ofValue value)
  | watch {s : Store σ} (h : Reached s) (react : Reaction σ) : Reached (s.watch react).1
  | unwatch {s : Store σ} (h : Reached s) (id : Nat) : Reached (s.unwatch id)
  | update {s : Store σ} {n : Nat} {f : σ → σ} {r} (h : Reached s) (done : update n f s = some r) : Reached r.1

theorem Reached.numbered {s : Store σ} (h : Reached s) : s.Numbered := by
  induction h with
  | start value => exact ⟨.nil, fun _ hw => absurd hw List.not_mem_nil⟩
  | watch _ react ih => exact ih.watch react
  | unwatch _ id ih => exact ih.unwatch id
  | update _ done ih => exact (tells_update done ih).numbered

/-- Once an update is done, with all those that watchers made meanwhile, a watcher was last told the value of the store
    exactly if what it was told last was the value of the store at that time: none misses the last update, and a watcher
    is left behind only by being told an earlier one after it. So a watcher is never left behind if no watcher that was
    registered before it makes updates. -/
theorem told_last_iff {s s' : Store σ} (reached : Reached s) {depth : Nat} {f : σ → σ} {calls : List (Delivery σ)}
    (done : s.update depth f = some (s', calls)) {id : Nat} (stays : s'.isWatched id = true) :
    (∀ d, lastCall? id calls = some d → (d.snapshot = s'.value ↔ d.snapshot = d.current)) ∧
      (s.isWatched id = true → ∃ d, lastCall? id calls = some d ∧
        (Undisturbed id s.watchers → d.snapshot = s'.value)) := by
  have tells : Tells s calls s' := tells_update done reached.numbered
  have last {d : Delivery σ} (hd : lastCall? id calls = some d) : d.current = s'.value := tells.last stays hd
  refine ⟨fun d hd => by rw [last hd], fun watched => ?_⟩
  obtain ⟨w, hw, rfl⟩ := isWatched_iff.mp watched
  cases hd : lastCall? w.1 calls with
  | none =>
    obtain ⟨d, mem, same⟩ := called_of_update done w hw
    exact absurd same (lastCall?_eq_none_iff.mp hd d mem)
  | some d =>
    refine ⟨d, rfl, fun undisturbed => ?_⟩
    obtain ⟨mem, same⟩ := mem_of_lastCall? hd
    have inTime : InTime w.1 calls s' := inTime_update done (reached.numbered.lt w hw) undisturbed
    rw [inTime.timely d mem same, last hd]

/-- A watcher that sets the store to one more than it is told, up to a limit. -/
def raiseTo (limit : Nat) : Reaction Nat := fun _ n => if n < limit then [.update fun _ => n + 1] else []

/-- A store with a watcher that makes updates, and one behind it that makes none. -/
def raisedFirst : Store Nat := (((ofValue 0).watch (raiseTo 2)).1.watch .quiet).1

theorem reached_raisedFirst : Reached raisedFirst := ((Reached.start 0).watch _).watch _

/-- The first watcher is told both its own update and the one before it in time. -/
theorem told_last_raising : ∃ s' calls, raisedFirst.update 2 (fun _ => 1) = some (s', calls) ∧ s'.isWatched 0 = true ∧
    ∃ d, lastCall? 0 calls = some d ∧ d.snapshot = s'.value := by
  obtain ⟨⟨s', calls⟩, done⟩ := Option.isSome_iff_exists.mp (rfl : (raisedFirst.update 2 fun _ => 1).isSome = true)
  have stays : s'.isWatched 0 = true := by
    cases done
    rfl
  obtain ⟨-, called⟩ := told_last_iff reached_raisedFirst done stays
  obtain ⟨d, last, current⟩ := called rfl
  refine ⟨s', calls, done, stays, d, last, current ?_⟩
  refine List.pairwise_cons.mpr ⟨fun b hb same => ?_, List.pairwise_singleton _ _⟩
  rw [List.mem_singleton.mp hb] at same
  cases same

/-- The second watcher is told the update of the first one, and then the one before it: the store holds 2 in the end,
    and 1 was told last. -/
theorem exists_left_behind : ∃ s' calls, raisedFirst.update 2 (fun _ => 1) = some (s', calls) ∧
    raisedFirst.isWatched 1 = true ∧ s'.isWatched 1 = true ∧ s'.value = 2 ∧
    lastCall? 1 calls = some { watcher := 1, snapshot := 1, current := 2 } :=
  ⟨_, _, rfl, rfl, rfl, rfl, rfl⟩

end Store
end MfaConsole
