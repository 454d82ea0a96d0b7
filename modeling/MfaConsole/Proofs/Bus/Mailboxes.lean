import Mathlib.Data.List.Nodup
import MfaConsole.Bus

/-! What the operations of the bus do to the mailboxes of live subscribers, and to the list of those the bus knows.
    The list may hold mailboxes whose subscribers have left, until the next event is published; what counts is who on
    it is still there. -/

namespace MfaConsole
namespace Bus

/-! ### Mailboxes -/

theorem live?_eq_some_iff {b : Bus} {i : Nat} {m : Mailbox} :
    b.live? i = some m ↔ b.mailboxes[i]? = some m ∧ m.live = true := by
  unfold live?
  exact Option.filter_eq_some_iff

theorem lt_of_live? {b : Bus} {i : Nat} {m : Mailbox} (h : b.live? i = some m) : i < b.mailboxes.length :=
  (List.getElem?_eq_some_iff.mp (live?_eq_some_iff.mp h).1).1

theorem live?_subscribe (b : Bus) (topic : Topic) (i : Nat) : (b.subscribe topic).1.live? i =
    if i = b.mailboxes.length then some { topic, queue := [], live := true } else b.live? i := by
  unfold live? subscribe
  rw [List.getElem?_append]
  by_cases h : i = b.mailboxes.length
  · subst h
    simp [Option.filter]
  · rw [if_neg h]
    by_cases hlt : i < b.mailboxes.length
    · rw [if_pos hlt]
    · have out : b.mailboxes.length < i := by omega
      rw [if_neg hlt, List.getElem?_eq_none (by simp; omega), List.getElem?_eq_none (by omega)]

theorem live?_unsubscribe (b : Bus) (i j : Nat) :
    (b.unsubscribe i).live? j = if j = i then none else b.live? j := by
  unfold live? unsubscribe
  rw [List.getElem?_modify]
  by_cases h : i = j
  · subst h
    cases b.mailboxes[i]? <;> simp [Option.filter]
  · simp [h, Ne.symm h]

theorem getElem?_foldl_modify {α : Type} (f : α → α) (j : Nat) : ∀ {is : List Nat} {ms : List α}, is.Nodup →
    (is.foldl (fun ms i => ms.modify i f) ms)[j]? = if j ∈ is then ms[j]?.map f else ms[j]?
  | [], ms, _ => by simp
  | i :: is, ms, h => by
    obtain ⟨hi, hn⟩ := List.nodup_cons.mp h
    rw [List.foldl_cons, getElem?_foldl_modify f j hn, List.getElem?_modify]
    by_cases hj : i = j
    · subst hj
      simp [hi]
    · simp [hj, Ne.symm hj]

theorem length_foldl_modify {α : Type} (f : α → α) : ∀ (is : List Nat) (ms : List α),
    (is.foldl (fun ms i => ms.modify i f) ms).length = ms.length
  | [], _ => rfl
  | i :: is, ms => by rw [List.foldl_cons, length_foldl_modify f is, List.length_modify]

theorem mem_reached {b : Bus} {e : Event} {j : Nat} : j ∈ b.known.filter (b.reached e) ↔
    j ∈ b.known ∧ ∃ m, b.live? j = some m ∧ m.topic = e.topic := by
  unfold reached
  simp [Option.any_eq_true]

theorem take_of_not_live {b : Bus} {i : Nat} (h : b.live? i = none) : b.take i = (b, none) := by
  unfold take
  rw [h]

theorem take_of_nil {b : Bus} {i : Nat} {m : Mailbox} (h : b.live? i = some m) (hq : m.queue = []) :
    b.take i = (b, none) := by
  unfold take
  rw [h]
  simp only [hq]

theorem take_of_cons {b : Bus} {i : Nat} {m : Mailbox} {e : Event} {rest : List Event} (h : b.live? i = some m)
    (hq : m.queue = e :: rest) :
    b.take i = ({ b with mailboxes := b.mailboxes.set i { m with queue := rest } }, some e) := by
  unfold take
  rw [h]
  simp only [hq]

/-- What is taken is the oldest event that is queued, if there is one. -/
theorem take_snd (b : Bus) (i : Nat) : (b.take i).2 = (b.live? i).bind (·.queue.head?) := by
  cases hm : b.live? i with
  | none => rw [take_of_not_live hm]; rfl
  | some m =>
    cases hq : m.queue with
    | nil => rw [take_of_nil hm hq]; simp [hq]
    | cons e rest => rw [take_of_cons hm hq]; simp [hq]

theorem live?_take (b : Bus) (i j : Nat) : (b.take i).1.live? j =
    if j = i then (b.live? i).map fun m => { m with queue := m.queue.tail } else b.live? j := by
  cases hm : b.live? i with
  | none =>
    rw [take_of_not_live hm]
    split
    · next h => rw [h, hm]; rfl
    · rfl
  | some m =>
    cases hq : m.queue with
    | nil =>
      rw [take_of_nil hm hq]
      have same : { m with queue := m.queue.tail } = m := by
        rw [hq, List.tail_nil, ← hq]
      split
      · next h => rw [h, hm, Option.map_some, same]
      · rfl
    | cons e rest =>
      rw [take_of_cons hm hq]
      unfold live?
      dsimp only
      rw [List.getElem?_set]
      by_cases h : j = i
      · subst h
        have live : m.live = true := (live?_eq_some_iff.mp hm).2
        simp [lt_of_live? hm, hq, live, Option.filter]
      · simp [h, Ne.symm h]

theorem topic_of_take {b : Bus} {i j : Nat} {m' : Mailbox} (h : (b.take i).1.live? j = some m') :
    ∃ m, b.live? j = some m ∧ m.topic = m'.topic := by
  rw [live?_take] at h
  split at h
  · next same =>
    obtain ⟨m, before, rfl⟩ := Option.map_eq_some_iff.mp h
    exact ⟨m, same ▸ before, rfl⟩
  · exact ⟨m', h, rfl⟩

theorem isOpen_take (b : Bus) (i : Nat) : (b.take i).1.isOpen = b.isOpen ∧ (b.take i).1.known = b.known ∧
    (b.take i).1.mailboxes.length = b.mailboxes.length := by
  cases hm : b.live? i with
  | none => rw [take_of_not_live hm]; exact ⟨rfl, rfl, rfl⟩
  | some m =>
    cases hq : m.queue with
    | nil => rw [take_of_nil hm hq]; exact ⟨rfl, rfl, rfl⟩
    | cons e rest => rw [take_of_cons hm hq]; exact ⟨rfl, rfl, List.length_set⟩

/-! ### The list of the bus -/

/-- A bus knows whoever is there, once. -/
structure Knows (b : Bus) : Prop where
  nodup : b.known.Nodup
  lt : ∀ i ∈ b.known, i < b.mailboxes.length
  live : b.isOpen = true → ∀ i m, b.live? i = some m → i ∈ b.known

theorem live?_publish {b : Bus} (h : b.Knows) (isOpen : b.isOpen = true) (e : Event) (i : Nat) :
    (b.publish e).1.live? i = (b.live? i).map fun m => if m.topic = e.topic then m.put e else m := by
  have given : (b.publish e).1.mailboxes[i]? =
      if i ∈ b.known.filter (b.reached e) then b.mailboxes[i]?.map (·.put e) else b.mailboxes[i]? :=
    getElem?_foldl_modify (Mailbox.put · e) i (h.nodup.filter _)
  rw [live?, given]
  cases hm : b.live? i with
  | none =>
    have absent : i ∉ b.known.filter (b.reached e) := fun hi => by
      obtain ⟨-, m, found, -⟩ := mem_reached.mp hi
      rw [hm] at found
      cases found
    rw [if_neg absent]
    exact hm
  | some m =>
    obtain ⟨found, live⟩ := live?_eq_some_iff.mp hm
    by_cases topic : m.topic = e.topic
    · have present : i ∈ b.known.filter (b.reached e) := mem_reached.mpr ⟨h.live isOpen i m hm, m, hm, topic⟩
      rw [if_pos present, found]
      simp [topic, Mailbox.put, live, Option.filter]
    · have absent : i ∉ b.known.filter (b.reached e) := fun hi => by
        obtain ⟨-, m', found', same⟩ := mem_reached.mp hi
        rw [hm] at found'
        cases found'
        exact topic same
      rw [if_neg absent, found]
      simp [topic, live, Option.filter]

namespace Knows
variable {b : Bus}

theorem subscribe (h : b.Knows) (topic : Topic) : (b.subscribe topic).1.Knows where
  nodup := by
    refine List.nodup_append.mpr ⟨h.nodup, List.nodup_singleton _, fun i hi j hj => ?_⟩
    have := h.lt i hi
    rw [List.mem_singleton.mp hj]
    omega
  lt i hi := by
    have grown : (b.subscribe topic).1.mailboxes.length = b.mailboxes.length + 1 := List.length_append
    rw [grown]
    rcases List.mem_append.mp hi with hi | hi
    · exact Nat.lt_succ_of_lt (h.lt i hi)
    · rw [List.mem_singleton.mp hi]
      exact Nat.lt_succ_self _
  live isOpen i m hm := by
    rw [live?_subscribe] at hm
    split at hm
    · next new => exact List.mem_append_right _ (List.mem_singleton.mpr new)
    · exact List.mem_append_left _ (h.live isOpen i m hm)

theorem publish (h : b.Knows) (isOpen : b.isOpen = true) (e : Event) : (b.publish e).1.Knows where
  nodup := h.nodup.filter _
  lt i hi := by
    have same : (b.publish e).1.mailboxes.length = b.mailboxes.length := length_foldl_modify (Mailbox.put · e) _ _
    rw [same]
    exact h.lt i (List.mem_of_mem_filter hi)
  live _ i m hm := by
    rw [live?_publish h isOpen] at hm
    obtain ⟨m', before, -⟩ := Option.map_eq_some_iff.mp hm
    exact List.mem_filter.mpr ⟨h.live isOpen i m' before, by rw [before]; rfl⟩

theorem unsubscribe (h : b.Knows) (i : Nat) : (b.unsubscribe i).Knows where
  nodup := h.nodup
  lt j hj := by
    have same : (b.unsubscribe i).mailboxes.length = b.mailboxes.length := List.length_modify _ _ _
    rw [same]
    exact h.lt j hj
  live isOpen j m hm := by
    rw [live?_unsubscribe] at hm
    split at hm
    · cases hm
    · exact h.live isOpen j m hm

theorem take (h : b.Knows) (i : Nat) : (b.take i).1.Knows := by
  obtain ⟨isOpen, known, length⟩ := isOpen_take b i
  refine ⟨known ▸ h.nodup, fun j hj => ?_, fun o j m hm => ?_⟩
  · rw [length]
    exact h.lt j (known ▸ hj)
  · rw [known]
    rw [live?_take] at hm
    split at hm
    · next same =>
      obtain ⟨m', before, -⟩ := Option.map_eq_some_iff.mp hm
      exact h.live (isOpen ▸ o) j m' (same ▸ before)
    · exact h.live (isOpen ▸ o) j m hm

theorem close (b : Bus) : b.close.Knows :=
  ⟨List.nodup_nil, fun _ hi => absurd hi List.not_mem_nil, fun isOpen => by cases isOpen⟩

end Knows

/-! ### Who is on the list -/

/-- The live subscribers that the bus knows, with their topics, oldest first. -/
def listening (b : Bus) : List (Nat × Topic) := b.known.filterMap fun i => (b.live? i).map fun m => (i, m.topic)

theorem listening_congr {b b' : Bus} (known : b'.known = b.known)
    (same : ∀ i ∈ b.known, (b'.live? i).map (·.topic) = (b.live? i).map (·.topic)) : b'.listening = b.listening := by
  unfold listening
  rw [known]
  refine List.filterMap_congr fun i hi => ?_
  have := congrArg (Option.map (Prod.mk i)) (same i hi)
  simpa [Option.map_map, Function.comp_def] using this

theorem listening_subscribe {b : Bus} (h : b.Knows) (topic : Topic) :
    (b.subscribe topic).1.listening = b.listening ++ [(b.mailboxes.length, topic)] := by
  have before : (b.known.filterMap fun i => ((b.subscribe topic).1.live? i).map fun m => (i, m.topic)) =
      b.listening := by
    refine List.filterMap_congr fun i hi => ?_
    have := h.lt i hi
    rw [live?_subscribe, if_neg (by omega)]
  have new : (b.subscribe topic).1.live? b.mailboxes.length = some { topic, queue := [], live := true } := by
    rw [live?_subscribe, if_pos rfl]
  have known : (b.subscribe topic).1.known = b.known ++ [b.mailboxes.length] := rfl
  rw [listening, known, List.filterMap_append, before, List.filterMap_cons, new]
  rfl

theorem listening_unsubscribe (b : Bus) (i : Nat) :
    (b.unsubscribe i).listening = b.listening.filter fun s => s.1 ≠ i := by
  have known : (b.unsubscribe i).known = b.known := rfl
  unfold listening
  rw [known, List.filter_filterMap]
  refine List.filterMap_congr fun j _ => ?_
  rw [live?_unsubscribe]
  by_cases h : j = i
  · cases b.live? j <;> simp [h, Option.filter]
  · cases b.live? j <;> simp [h, Option.filter]

theorem listening_publish {b : Bus} (h : b.Knows) (isOpen : b.isOpen = true) (e : Event) :
    (b.publish e).1.listening = b.listening := by
  have topics (i : Nat) : ((b.publish e).1.live? i).map (fun m => (i, m.topic)) =
      (b.live? i).map fun m => (i, m.topic) := by
    rw [live?_publish h isOpen]
    cases b.live? i with
    | none => rfl
    | some m =>
      simp only [Option.map_some]
      split <;> rfl
  have known : (b.publish e).1.known = b.known.filter fun i => (b.live? i).isSome := rfl
  unfold listening
  rw [known, List.filterMap_filter]
  refine List.filterMap_congr fun i _ => ?_
  rw [topics]
  cases b.live? i <;> simp

theorem listening_take (b : Bus) (i : Nat) : (b.take i).1.listening = b.listening := by
  refine listening_congr (isOpen_take b i).2.1 fun j _ => ?_
  rw [live?_take]
  split
  · next h => rw [h, Option.map_map]; rfl
  · rfl

theorem publish_snd (b : Bus) (e : Event) : (b.publish e).2 = b.listening.countP fun s => s.2 = e.topic := by
  have counted : (b.publish e).2 = b.known.countP (b.reached e) := List.countP_eq_length_filter.symm
  rw [counted, listening, List.countP_filterMap]
  refine List.countP_congr fun i _ => ?_
  unfold reached
  cases b.live? i <;> simp

theorem subscriberCount_eq (b : Bus) : b.subscriberCount = b.listening.length := by
  unfold subscriberCount listening
  rw [List.length_filterMap_eq_countP, ← List.countP_eq_length_filter]
  refine List.countP_congr fun i _ => ?_
  cases b.live? i <;> simp

end Bus
end MfaConsole
