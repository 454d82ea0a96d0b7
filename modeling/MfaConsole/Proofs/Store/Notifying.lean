import MfaConsole.Proofs.History
import MfaConsole.Store

/-! Which watchers of a store are called, where watchers only listen. A history holds what was done to a store with the
    answers that were given, and says by itself whose guards are still held. However registrations, updates and drops
    follow on one another, each update calls those watchers once each and nobody else, and a dropped guard takes its own
    watcher with it: numbers are never given again, so that a number is enough to tell watchers apart. -/

namespace MfaConsole
namespace Store

variable {σ : Type}

/-! ### Histories -/

/-- What happens to a store, with the answer: a watcher is given the number of its guard, an update calls watchers, and
    a guard is dropped. -/
inductive Happening (σ : Type) where
  | watched (guard : Nat) (react : Reaction σ)
  | updated (f : σ → σ) (calls : List (Delivery σ))
  | dropped (guard : Nat)

def Happening.registered? : Happening σ → Option (Nat × Reaction σ)
  | .watched guard react => some (guard, react)
  | _ => none

def Happening.dropped? : Happening σ → Option Nat
  | .dropped guard => some guard
  | _ => none

def Happening.change : Happening σ → σ → σ
  | .updated f _ => f
  | _ => id

/-- The watchers ever registered, with the numbers of their guards. -/
def registered (hs : List (Happening σ)) : List (Nat × Reaction σ) := hs.filterMap (·.registered?)

def dropped (hs : List (Happening σ)) : List Nat := hs.filterMap (·.dropped?)

/-- The watchers whose guards are still held, in the order of their registration. -/
def held (hs : List (Happening σ)) : List (Nat × Reaction σ) := (registered hs).filter fun w => w.1 ∉ dropped hs

/-- What the updates make of a value. -/
def valueAfter (first : σ) (hs : List (Happening σ)) : σ := hs.foldl (fun v h => h.change v) first

/-- A watcher that asks for nothing. -/
def OnlyListens (react : Reaction σ) : Prop := ∀ id v, react id v = []

/-- A store that held `first` at the beginning, and all that has happened to it. Its watchers only listen, and a guard
    is dropped while it is held. -/
inductive Recorded (first : σ) : Store σ → List (Happening σ) → Prop where
  | start : Recorded first (ofValue first) []
  | watch {s : Store σ} {hs : List (Happening σ)} (recorded : Recorded first s hs) {react : Reaction σ}
      (listens : OnlyListens react) :
      Recorded first (s.watch react).1 (hs ++ [.watched (s.watch react).2 react])
  | update {s s' : Store σ} {hs : List (Happening σ)} (recorded : Recorded first s hs) (depth : Nat) (f : σ → σ)
      {calls : List (Delivery σ)} (done : s.update depth f = some (s', calls)) :
      Recorded first s' (hs ++ [.updated f calls])
  | set {s s' : Store σ} {hs : List (Happening σ)} (recorded : Recorded first s hs) (depth : Nat) (value : σ)
      {calls : List (Delivery σ)} (done : s.set depth value = some (s', calls)) :
      Recorded first s' (hs ++ [.updated (fun _ => value) calls])
  | drop {s : Store σ} {hs : List (Happening σ)} (recorded : Recorded first s hs) (guard : Nat) {react : Reaction σ}
      (own : (guard, react) ∈ held hs) : Recorded first (s.unwatch guard) (hs ++ [.dropped guard])

/-- What happens next is what the history calls for. A watcher gets a number above all those given before; an update
    calls each watcher whose guard is held, once, in the order of registration, with the value it has just made; and a
    guard that is dropped takes away the watcher it was given for, and no other. -/
def Fits (first : σ) (hs : List (Happening σ)) : Happening σ → Prop
  | .watched guard _ => ∀ w ∈ registered hs, w.1 < guard
  | .updated f calls => calls = (held hs).map fun w =>
      { watcher := w.1, snapshot := f (valueAfter first hs), current := f (valueAfter first hs) }
  | .dropped guard => ∃ earlier react later, held hs = earlier ++ (guard, react) :: later ∧
      held (hs ++ [.dropped guard]) = earlier ++ later

/-- A store has the watchers whose guards are held and the value that the updates led to; whatever happened fitted, and
    further updates come to an end. The numbers are counted up from zero. -/
structure Notifies (first : σ) (s : Store σ) (hs : List (Happening σ)) : Prop where
  value : s.value = valueAfter first hs
  numbers : (registered hs).map (·.1) = List.range (registered hs).length
  watchers : s.watchers = held hs
  count : s.watcherCount = (held hs).length
  fits : ∀ before h after, hs = before ++ h :: after → Fits first before h
  updates : ∀ depth f, (s.update (depth + 1) f).isSome = true
  sets : ∀ depth value, (s.set (depth + 1) value).isSome = true

/-! ### Updates -/

theorem deliver_of_onlyListens (change : (σ → σ) → Store σ → Run σ) (snapshot : σ) (s : Store σ) :
    ∀ {ws : List (Nat × Reaction σ)}, (∀ w ∈ ws, OnlyListens w.2) → deliver change snapshot ws s =
      some (s, ws.map fun w => { watcher := w.1, snapshot, current := s.value })
  | [], _ => rfl
  | w :: ws, h => by
    have rest := deliver_of_onlyListens change snapshot s fun x hx => h x (List.mem_cons_of_mem w hx)
    rw [deliver, h w List.mem_cons_self, carryOut, Option.bind_some, rest]
    rfl

/-- An update changes the value and calls the watchers that there are, once each. -/
theorem update_of_onlyListens {s : Store σ} (h : ∀ w ∈ s.watchers, OnlyListens w.2) (depth : Nat) (f : σ → σ) :
    s.update (depth + 1) f = some ({ s with value := f s.value },
      s.watchers.map fun w => { watcher := w.1, snapshot := f s.value, current := f s.value }) :=
  deliver_of_onlyListens (update depth) (f s.value) _ h

/-! ### What a store keeps of its history -/

/-- What is known of a store from its history. Numbers that were given are below the next one, those of dropped guards
    among them, so that the next watcher cannot be taken for one that is gone. -/
structure Tracks (first : σ) (s : Store σ) (hs : List (Happening σ)) : Prop where
  value : s.value = valueAfter first hs
  watchers : s.watchers = held hs
  numbers : (registered hs).map (·.1) = List.range s.nextId
  gone : ∀ guard ∈ dropped hs, guard < s.nextId
  listens : ∀ w ∈ registered hs, OnlyListens w.2

theorem valueAfter_concat (first : σ) (hs : List (Happening σ)) (h : Happening σ) :
    valueAfter first (hs ++ [h]) = h.change (valueAfter first hs) := by
  rw [valueAfter, List.foldl_append]
  rfl

theorem registered_watched (hs : List (Happening σ)) (guard : Nat) (react : Reaction σ) :
    registered (hs ++ [.watched guard react]) = registered hs ++ [(guard, react)] := filterMap_concat _ hs _

theorem registered_of_none {h : Happening σ} (hs : List (Happening σ)) (none : h.registered? = none) :
    registered (hs ++ [h]) = registered hs := filterMap_concat_of_none hs none

theorem dropped_dropped (hs : List (Happening σ)) (guard : Nat) :
    dropped (hs ++ [.dropped guard]) = dropped hs ++ [guard] := filterMap_concat _ hs _

theorem dropped_of_none {h : Happening σ} (hs : List (Happening σ)) (none : h.dropped? = none) :
    dropped (hs ++ [h]) = dropped hs := filterMap_concat_of_none hs none

theorem held_updated (hs : List (Happening σ)) (f : σ → σ) (calls : List (Delivery σ)) :
    held (hs ++ [.updated f calls]) = held hs := by
  rw [held, registered_of_none hs rfl, dropped_of_none hs rfl, held]

theorem held_dropped (hs : List (Happening σ)) (guard : Nat) :
    held (hs ++ [.dropped guard]) = (held hs).filter fun w => w.1 ≠ guard := by
  rw [held, registered_of_none hs rfl, dropped_dropped, held, List.filter_filter]
  refine List.filter_congr fun w _ => ?_
  simp [and_comm]

namespace Tracks
variable {first : σ} {s s' : Store σ} {hs : List (Happening σ)}

theorem start (first : σ) : Tracks first (ofValue first) [] where
  value := rfl
  watchers := rfl
  numbers := rfl
  gone _ hg := absurd hg List.not_mem_nil
  listens _ hw := absurd hw List.not_mem_nil

theorem known (h : Tracks first s hs) {w : Nat × Reaction σ} (hw : w ∈ registered hs) : w.1 < s.nextId := by
  rw [← List.mem_range, ← h.numbers]
  exact List.mem_map_of_mem hw

theorem length_registered (h : Tracks first s hs) : (registered hs).length = s.nextId := by
  rw [← List.length_map (f := Prod.fst), h.numbers, List.length_range]

theorem increasing (h : Tracks first s hs) : (registered hs).Pairwise fun a b => a.1 < b.1 := by
  rw [← List.pairwise_map (f := Prod.fst), h.numbers]
  exact List.pairwise_lt_range

theorem watch (h : Tracks first s hs) {react : Reaction σ} (listens : OnlyListens react) :
    Tracks first (s.watch react).1 (hs ++ [.watched s.nextId react]) where
  value := by
    rw [valueAfter_concat]
    exact h.value
  watchers := by
    -- No guard that was dropped had this number, so the new watcher counts as held.
    have new : s.nextId ∉ dropped hs := fun hg => Nat.lt_irrefl _ (h.gone _ hg)
    rw [held, registered_watched, dropped_of_none hs rfl, List.filter_append]
    have kept : [(s.nextId, react)].filter (fun w => w.1 ∉ dropped hs) = [(s.nextId, react)] := by simp [new]
    rw [kept, ← held, ← h.watchers]
    rfl
  numbers := by
    rw [registered_watched, List.map_append, h.numbers]
    exact List.range_succ.symm
  gone guard hg := by
    rw [dropped_of_none hs rfl] at hg
    exact Nat.lt_succ_of_lt (h.gone guard hg)
  listens w hw := by
    rw [registered_watched] at hw
    rcases List.mem_append.mp hw with hw | hw
    · exact h.listens w hw
    · rw [List.mem_singleton.mp hw]
      exact listens

theorem onlyListens (h : Tracks first s hs) : ∀ w ∈ s.watchers, OnlyListens w.2 := by
  rw [h.watchers]
  exact fun w hw => h.listens w (List.mem_of_mem_filter hw)

/-- An update that comes to an end is one of the value alone. -/
theorem eq_of_update (h : Tracks first s hs) {depth : Nat} {f : σ → σ} {calls : List (Delivery σ)}
    (done : s.update depth f = some (s', calls)) : s' = { s with value := f s.value } ∧
      calls = s.watchers.map fun w => { watcher := w.1, snapshot := f s.value, current := f s.value } := by
  cases depth with
  | zero => cases done
  | succ depth =>
    rw [update_of_onlyListens h.onlyListens] at done
    cases done
    exact ⟨rfl, rfl⟩

theorem update (h : Tracks first s hs) (f : σ → σ) (calls : List (Delivery σ)) :
    Tracks first { s with value := f s.value } (hs ++ [.updated f calls]) where
  value := by
    rw [valueAfter_concat, ← h.value]
    rfl
  watchers := by
    rw [held_updated]
    exact h.watchers
  numbers := by
    rw [registered_of_none hs rfl]
    exact h.numbers
  gone := by
    rw [dropped_of_none hs rfl]
    exact h.gone
  listens := by
    rw [registered_of_none hs rfl]
    exact h.listens

theorem drop (h : Tracks first s hs) {guard : Nat} {react : Reaction σ} (own : (guard, react) ∈ held hs) :
    Tracks first (s.unwatch guard) (hs ++ [.dropped guard]) where
  value := by
    rw [valueAfter_concat]
    exact h.value
  watchers := by
    rw [held_dropped, ← h.watchers]
    rfl
  numbers := by
    rw [registered_of_none hs rfl]
    exact h.numbers
  gone other hg := by
    rw [dropped_dropped] at hg
    rcases List.mem_append.mp hg with hg | hg
    · exact h.gone other hg
    · rw [List.mem_singleton.mp hg]
      exact h.known (List.mem_of_mem_filter own)
  listens := by
    rw [registered_of_none hs rfl]
    exact h.listens

/-- As no number was given twice, a guard that is dropped takes away one watcher. -/
theorem fits_dropped (h : Tracks first s hs) {guard : Nat} {react : Reaction σ} (own : (guard, react) ∈ held hs) :
    Fits first hs (.dropped guard) := by
  have increasing : (held hs).Pairwise fun a b => a.1 < b.1 := h.increasing.filter _
  obtain ⟨earlier, later, split⟩ := List.append_of_mem own
  rw [split] at increasing
  obtain ⟨-, after, before⟩ := List.pairwise_append.mp increasing
  refine ⟨earlier, react, later, split, ?_⟩
  have others : ∀ w ∈ earlier ++ later, w.1 ≠ guard := by
    intro w hw
    rcases List.mem_append.mp hw with hw | hw
    · exact Nat.ne_of_lt (before w hw _ List.mem_cons_self)
    · exact Nat.ne_of_gt (List.rel_of_pairwise_cons after hw)
  rw [held_dropped, split, List.filter_append, List.filter_cons_of_neg (by simp), ← List.filter_append,
    List.filter_eq_self]
  exact fun w hw => decide_eq_true (others w hw)

end Tracks

/-! ### Every history -/

section Recorded
variable {first : σ} {s : Store σ} {hs : List (Happening σ)}

theorem Recorded.tracks (recorded : Recorded first s hs) : Tracks first s hs := by
  induction recorded with
  | start => exact .start first
  | watch _ listens ih => exact ih.watch listens
  | update _ depth f done ih =>
    rw [(ih.eq_of_update done).1]
    exact ih.update f _
  | set _ depth value done ih =>
    rw [(ih.eq_of_update done).1]
    exact ih.update (fun _ => value) _
  | drop _ guard own ih => exact ih.drop own

theorem fits_updated (tracks : Tracks first s hs) {s' : Store σ} {depth : Nat} {f : σ → σ}
    {calls : List (Delivery σ)} (done : s.update depth f = some (s', calls)) : Fits first hs (.updated f calls) := by
  rw [Fits, (tracks.eq_of_update done).2, tracks.watchers, tracks.value]

theorem Recorded.fits (recorded : Recorded first s hs) :
    ∀ before h after, hs = before ++ h :: after → Fits first before h := by
  induction recorded with
  | start => simp
  | watch recorded _ ih => exact forall_cut_concat ih fun _ => recorded.tracks.known
  | update recorded depth f done ih => exact forall_cut_concat ih (fits_updated recorded.tracks done)
  | set recorded depth value done ih => exact forall_cut_concat ih (fits_updated recorded.tracks done)
  | drop recorded guard own ih => exact forall_cut_concat ih (recorded.tracks.fits_dropped own)

/-- However watchers are registered, guards dropped and values set and updated, an update calls exactly the watchers
    registered before it whose guards are held, once each, in the order of registration, with the value it has just
    made; a guard takes away its own watcher alone, no number is given twice, and as many watchers are counted as guards
    are held. -/
theorem notifies_of_recorded (recorded : Recorded first s hs) : Notifies first s hs where
  value := recorded.tracks.value
  numbers := by
    rw [recorded.tracks.numbers, ← recorded.tracks.length_registered]
  watchers := recorded.tracks.watchers
  count := congrArg List.length recorded.tracks.watchers
  fits := recorded.fits
  updates depth f := by
    rw [update_of_onlyListens recorded.tracks.onlyListens]
    rfl
  sets depth value := by
    rw [set, update_of_onlyListens recorded.tracks.onlyListens]
    rfl

end Recorded

/-- Three watchers come; the first leaves and a fourth comes between two updates, and the second leaves after them. The
    fourth gets a number of its own, and the last update still calls the third and the fourth. -/
theorem notifies_after_drops : ∃ (s : Store Nat) (hs : List (Happening Nat)), Recorded 0 s hs ∧ Notifies 0 s hs ∧
    hs = [.watched 0 .quiet, .watched 1 .quiet, .watched 2 .quiet,
      .updated (fun _ => 7) [⟨0, 7, 7⟩, ⟨1, 7, 7⟩, ⟨2, 7, 7⟩], .dropped 0, .watched 3 .quiet,
      .updated (· + 1) [⟨1, 8, 8⟩, ⟨2, 8, 8⟩, ⟨3, 8, 8⟩], .dropped 1,
      .updated (· + 1) [⟨2, 9, 9⟩, ⟨3, 9, 9⟩]] ∧ s.watcherCount = 2 := by
  have listens : OnlyListens (.quiet : Reaction Nat) := fun _ _ => rfl
  have three : Recorded 0 _ _ := ((Recorded.start.watch listens).watch listens).watch listens
  have fourth := ((three.set 1 7 rfl).drop 0 (.head _)).watch listens
  have recorded := ((fourth.update 1 (· + 1) rfl).drop 1 (.head _)).update 1 (· + 1) rfl
  have notifies := notifies_of_recorded recorded
  exact ⟨_, _, recorded, notifies, rfl, notifies.count⟩

end Store
end MfaConsole
