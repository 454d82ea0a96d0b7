import MfaConsole.Proofs.Bus.Mailboxes
import MfaConsole.Proofs.History

/-! What reaches the subscribers of the bus. A history holds what happened on a bus with the answers that were given,
    and says by itself what those answers should have been: who was there when an event was published, and which events
    a subscriber has been sent and has not yet taken. Every run gives those answers, though the bus forgets mailboxes
    late and only when an event is published. -/

namespace MfaConsole
namespace Bus

/-! ### Runs -/

/-- What happens on a bus, with the answer. -/
inductive Happening where
  | subscribed (i : Nat) (topic : Topic)
  | published (e : Event) (reached : Nat)
  | counted (subscribers : Nat)
  | left (i : Nat)
  /-- A subscriber took an event without waiting for one. -/
  | tried (i : Nat) (e : Option Event)
  /-- A subscriber waited for the next event. -/
  | awaited (i : Nat) (taken : Taken)
  | closed
  deriving DecidableEq

/-- Subscribers come, and events are published and subscribers counted, while the bus is open; a subscriber leaves and
    takes events while it is there. -/
inductive Step : Bus → Happening → Bus → Prop where
  | subscribe {b : Bus} (isOpen : b.isOpen = true) (topic : Topic) :
      Step b (.subscribed (b.subscribe topic).2 topic) (b.subscribe topic).1
  | publish {b : Bus} (isOpen : b.isOpen = true) (e : Event) : Step b (.published e (b.publish e).2) (b.publish e).1
  | count {b : Bus} (isOpen : b.isOpen = true) : Step b (.counted b.subscriberCount) b
  | leave {b : Bus} {i : Nat} (live : (b.live? i).isSome = true) : Step b (.left i) (b.unsubscribe i)
  | tryNext {b : Bus} {i : Nat} (live : (b.live? i).isSome = true) : Step b (.tried i (b.take i).2) (b.take i).1
  | next {b : Bus} {i : Nat} (live : (b.live? i).isSome = true) : Step b (.awaited i (b.next i).2) (b.next i).1
  | close {b : Bus} (isOpen : b.isOpen = true) : Step b .closed b.close

theorem Step.reload {b : Bus} (isOpen : b.isOpen = true) : Step b (.published .reload b.reload.2) b.reload.1 :=
  .publish isOpen .reload

/-- A bus and what has happened on it. -/
inductive Run : Bus → List Happening → Prop where
  | start : Run .empty []
  | step {b b' : Bus} {hs : List Happening} {h : Happening} (run : Run b hs) (step : Step b h b') :
      Run b' (hs ++ [h])

/-! ### What a history says -/

/-- The subscribers that have come and not left, with their topics. -/
def subscribers (hs : List Happening) : List (Nat × Topic) :=
  hs.foldl (fun there h =>
    match h with
    | .subscribed i topic => there ++ [(i, topic)]
    | .left i => there.filter fun s => s.1 ≠ i
    | _ => there) []

def Happening.published? (topic : Topic) : Happening → Option Event
  | .published e _ => if e.topic = topic then some e else none
  | _ => none

/-- The events of a topic that were published. -/
def published (topic : Topic) (hs : List Happening) : List Event := hs.filterMap (·.published? topic)

def Happening.taken? (i : Nat) : Happening → Option Event
  | .tried j e => if j = i then e else none
  | .awaited j (.event e) => if j = i then some e else none
  | _ => none

/-- The events that a subscriber took. -/
def taken (i : Nat) (hs : List Happening) : List Event := hs.filterMap (·.taken? i)

/-- A subscriber of a topic is there, and `since` is what has happened since it came. -/
def There (hs : List Happening) (i : Nat) (topic : Topic) (since : List Happening) : Prop :=
  (∃ before, hs = before ++ .subscribed i topic :: since) ∧ .left i ∉ since

/-- The answer in what happens next is the one that the history calls for. -/
def Fits (hs : List Happening) : Happening → Prop
  | .published e reached => reached = (subscribers hs).countP fun s => s.2 = e.topic
  | .counted n => n = (subscribers hs).length
  | .tried i e => ∃ topic since, There hs i topic since ∧ e = (published topic since)[(taken i since).length]?
  | .awaited i t => ∃ topic since, There hs i topic since ∧
      t = match (published topic since)[(taken i since).length]? with
        | some e => .event e
        | none => if .closed ∈ hs then .closed else .pending
  | _ => True

/-- A bus holds for each subscriber what it has been sent and not taken, and has answered as it should. -/
structure Delivers (b : Bus) (hs : List Happening) : Prop where
  queued : ∀ i topic since, There hs i topic since → ∃ m, b.live? i = some m ∧ m.topic = topic ∧
    taken i since ++ m.queue = published topic since
  answered : ∀ before h after, hs = before ++ h :: after → Fits before h

theorem subscribers_concat (hs : List Happening) (h : Happening) : subscribers (hs ++ [h]) =
    match h with
    | .subscribed i topic => subscribers hs ++ [(i, topic)]
    | .left i => (subscribers hs).filter fun s => s.1 ≠ i
    | _ => subscribers hs := by
  unfold subscribers
  rw [List.foldl_append]
  rfl

/-- A subscriber has just come, or was there before. -/
theorem There.of_concat {hs : List Happening} {h : Happening} {i : Nat} {topic : Topic} {since : List Happening}
    (there : There (hs ++ [h]) i topic since) : (h = .subscribed i topic ∧ since = []) ∨
      ∃ earlier, since = earlier ++ [h] ∧ There hs i topic earlier ∧ h ≠ .left i := Since.of_concat there

theorem There.concat {hs : List Happening} {h : Happening} {i : Nat} {topic : Topic} {since : List Happening}
    (there : There hs i topic since) (stays : h ≠ .left i) : There (hs ++ [h]) i topic (since ++ [h]) :=
  Since.concat there stays

/-! ### One step -/

theorem next_fst (b : Bus) (i : Nat) : (b.next i).1 = (b.take i).1 := by
  unfold next
  rcases b.take i with ⟨b', _ | e⟩ <;> rfl

theorem next_snd (b : Bus) (i : Nat) : (b.next i).2 =
    match (b.take i).2 with
    | some e => .event e
    | none => if b.isOpen then .pending else .closed := by
  have isOpen := (isOpen_take b i).1
  unfold next
  revert isOpen
  rcases b.take i with ⟨b', _ | e⟩
  · intro isOpen
    dsimp only at isOpen ⊢
    rw [isOpen]
  · exact fun _ => rfl

theorem Step.knows {b b' : Bus} {h : Happening} (step : Step b h b') (knows : b.Knows) : b'.Knows := by
  cases step with
  | subscribe _ topic => exact knows.subscribe topic
  | publish isOpen e => exact knows.publish isOpen e
  | count => exact knows
  | leave => exact knows.unsubscribe _
  | tryNext => exact knows.take _
  | next => exact next_fst b _ ▸ knows.take _
  | close => exact .close b

theorem queue_of_publish (m : Mailbox) (e : Event) (reached : Nat) :
    (if m.topic = e.topic then m.put e else m).topic = m.topic ∧
      m.queue ++ published m.topic [.published e reached] = (if m.topic = e.topic then m.put e else m).queue := by
  by_cases same : m.topic = e.topic
  · simp [same, published, Happening.published?, Mailbox.put]
  · simp [same, Ne.symm same, published, Happening.published?]

theorem queue_of_take (b : Bus) {i : Nat} {m : Mailbox} (live : b.live? i = some m) :
    m.queue = (b.take i).2.toList ++ m.queue.tail := by
  rw [take_snd, live]
  cases hq : m.queue <;> simp [hq]

theorem queue_of_other {i : Nat} {topic : Topic} {h : Happening} (silent : h.published? topic = none)
    (kept : h.taken? i = none) (queue : List Event) : queue ++ published topic [h] = taken i [h] ++ queue := by
  simp [published, taken, silent, kept]

theorem taken_tried (b : Bus) (i j : Nat) :
    taken i [.tried j (b.take j).2] = if i = j then (b.take i).2.toList else [] := by
  by_cases same : i = j
  · subst same
    cases (b.take i).2 <;> simp [taken, Happening.taken?]
  · simp [taken, Happening.taken?, same, Ne.symm same]

theorem taken_awaited (b : Bus) (i j : Nat) :
    taken i [.awaited j (b.next j).2] = if i = j then (b.take i).2.toList else [] := by
  rw [← taken_tried, next_snd]
  cases (b.take j).2 with
  | some e => rfl
  | none => cases b.isOpen <;> simp [taken, Happening.taken?]

theorem conserves_take {b : Bus} {h : Happening} {i : Nat} {m : Mailbox} (live : b.live? i = some m) (j : Nat)
    (out : taken i [h] = if i = j then (b.take i).2.toList else []) (silent : published m.topic [h] = []) :
    ∃ m', (b.take j).1.live? i = some m' ∧ m'.topic = m.topic ∧
      m.queue ++ published m.topic [h] = taken i [h] ++ m'.queue := by
  rw [live?_take, out, silent, List.append_nil]
  split
  · next same =>
    subst same
    exact ⟨{ m with queue := m.queue.tail }, by rw [live, Option.map_some], rfl, queue_of_take b live⟩
  · exact ⟨m, live, rfl, rfl⟩

/-- Whoever is there and does not leave stays there, and its queue loses what it takes and gains what is published to
    it. -/
theorem Step.conserves {b b' : Bus} {h : Happening} {i : Nat} {m : Mailbox} (step : Step b h b') (knows : b.Knows)
    (live : b.live? i = some m) (stays : h ≠ .left i) : ∃ m', b'.live? i = some m' ∧ m'.topic = m.topic ∧
      m.queue ++ published m.topic [h] = taken i [h] ++ m'.queue := by
  cases step with
  | subscribe _ topic =>
    have old := lt_of_live? live
    refine ⟨m, ?_, rfl, queue_of_other rfl rfl _⟩
    rw [live?_subscribe, if_neg (by omega)]
    exact live
  | publish isOpen e =>
    obtain ⟨topic, queue⟩ := queue_of_publish m e (b.publish e).2
    refine ⟨_, ?_, topic, queue⟩
    rw [live?_publish knows isOpen, live, Option.map_some]
  | count | close => exact ⟨m, live, rfl, queue_of_other rfl rfl _⟩
  | @leave j =>
    have other : i ≠ j := fun same => stays (same ▸ rfl)
    refine ⟨m, ?_, rfl, queue_of_other rfl rfl _⟩
    rw [live?_unsubscribe, if_neg other]
    exact live
  | @tryNext j => exact conserves_take live j (taken_tried b i j) rfl
  | @next j =>
    rw [next_fst]
    exact conserves_take live j (taken_awaited b i j) rfl

theorem Step.comes {b b' : Bus} {i : Nat} {topic : Topic} (step : Step b (.subscribed i topic) b') :
    b'.live? i = some { topic, queue := [], live := true } := by
  cases step
  rw [live?_subscribe]
  exact if_pos rfl

/-- Whoever is there after a step has come in it or was there before. -/
theorem Step.came {b b' : Bus} {h : Happening} {i : Nat} {m' : Mailbox} (step : Step b h b') (knows : b.Knows)
    (live : b'.live? i = some m') :
    h = .subscribed i m'.topic ∨ h ≠ .left i ∧ ∃ m, b.live? i = some m ∧ m.topic = m'.topic := by
  cases step with
  | subscribe _ topic =>
    rw [live?_subscribe] at live
    split at live
    · next new =>
      cases live
      exact Or.inl (new ▸ rfl)
    · exact Or.inr ⟨by simp, m', live, rfl⟩
  | publish isOpen e =>
    rw [live?_publish knows isOpen] at live
    obtain ⟨m, before, rfl⟩ := Option.map_eq_some_iff.mp live
    exact Or.inr ⟨by simp, m, before, (queue_of_publish m e 0).1.symm⟩
  | count => exact Or.inr ⟨by simp, m', live, rfl⟩
  | close => exact Or.inr ⟨by simp, m', live, rfl⟩
  | @leave j =>
    rw [live?_unsubscribe] at live
    split at live
    · cases live
    · next other => exact Or.inr ⟨by simpa using Ne.symm other, m', live, rfl⟩
  | @tryNext j => exact Or.inr ⟨by simp, topic_of_take live⟩
  | @next j => exact Or.inr ⟨by simp, topic_of_take (next_fst b j ▸ live)⟩

/-! ### Runs -/

/-- What holds between a bus and its history, besides the delivery. -/
structure Told (b : Bus) (hs : List Happening) : Prop where
  knows : b.Knows
  isOpen : b.isOpen = true ↔ .closed ∉ hs
  listening : b.isOpen = true → b.listening = subscribers hs
  there : ∀ i m, b.live? i = some m → ∃ since, There hs i m.topic since

theorem Step.isOpen {b b' : Bus} {h : Happening} (step : Step b h b') :
    b'.isOpen = true ↔ b.isOpen = true ∧ h ≠ .closed := by
  cases step with
  | tryNext => simp [(isOpen_take b _).1]
  | next => simp [next_fst, (isOpen_take b _).1]
  | close => simp [Bus.close]
  | _ => simp [Bus.subscribe, Bus.publish, Bus.unsubscribe]

theorem Step.listening {b b' : Bus} {h : Happening} {hs : List Happening} (step : Step b h b') (told : Told b hs)
    (isOpen : b'.isOpen = true) : b'.listening = subscribers (hs ++ [h]) := by
  have before := told.listening (step.isOpen.mp isOpen).1
  rw [subscribers_concat]
  cases step with
  | subscribe _ topic => rw [listening_subscribe told.knows, before]; rfl
  | publish open' e => exact (listening_publish told.knows open' e).trans before
  | count => exact before
  | leave => rw [listening_unsubscribe, before]
  | tryNext => exact (listening_take b _).trans before
  | next => rw [next_fst]; exact (listening_take b _).trans before
  | close => cases isOpen

theorem Step.told {b b' : Bus} {h : Happening} {hs : List Happening} (step : Step b h b') (told : Told b hs) :
    Told b' (hs ++ [h]) where
  knows := step.knows told.knows
  isOpen := by
    rw [step.isOpen, told.isOpen, List.mem_append, List.mem_singleton, not_or, ne_comm]
  listening := step.listening told
  there i m' live := by
    rcases step.came told.knows live with rfl | ⟨stays, m, before, topic⟩
    · exact ⟨[], ⟨hs, rfl⟩, List.not_mem_nil⟩
    · obtain ⟨since, there⟩ := told.there i m before
      exact ⟨since ++ [h], topic ▸ there.concat stays⟩

theorem oldest_eq {i : Nat} {topic : Topic} {since : List Happening} {m : Mailbox}
    (h : taken i since ++ m.queue = published topic since) :
    m.queue.head? = (published topic since)[(taken i since).length]? := by
  rw [← h, List.getElem?_append_right (Nat.le_refl _), Nat.sub_self, List.head?_eq_getElem?]

/-- What a live subscriber takes is the oldest of the events that it was sent and has not taken yet. -/
theorem Delivers.take_snd {b : Bus} {hs : List Happening} (delivers : Delivers b hs) (told : Told b hs) {i : Nat}
    (live : (b.live? i).isSome = true) : ∃ topic since, There hs i topic since ∧
      (b.take i).2 = (published topic since)[(taken i since).length]? := by
  obtain ⟨m, hm⟩ := Option.isSome_iff_exists.mp live
  obtain ⟨since, there⟩ := told.there i m hm
  obtain ⟨m', hm', -, account⟩ := delivers.queued i m.topic since there
  obtain rfl := Option.some.inj (hm.symm.trans hm')
  refine ⟨m.topic, since, there, ?_⟩
  rw [Bus.take_snd, hm, Option.bind_some]
  exact oldest_eq account

theorem Step.fits {b b' : Bus} {h : Happening} {hs : List Happening} (step : Step b h b') (told : Told b hs)
    (delivers : Delivers b hs) : Fits hs h := by
  cases step with
  | publish isOpen e =>
    show (b.publish e).2 = _
    rw [publish_snd, told.listening isOpen]
  | count isOpen =>
    show b.subscriberCount = _
    rw [subscriberCount_eq, told.listening isOpen]
  | tryNext live => exact delivers.take_snd told live
  | @next i live =>
    obtain ⟨topic, since, there, out⟩ := delivers.take_snd told live
    refine ⟨topic, since, there, ?_⟩
    rw [next_snd, ← out]
    cases (b.take i).2 with
    | some e => rfl
    | none =>
      by_cases gone : Happening.closed ∈ hs
      · have shut : b.isOpen ≠ true := fun isOpen => told.isOpen.mp isOpen gone
        simp [gone, shut]
      · simp [gone, told.isOpen.mpr gone]
  | _ => trivial

theorem Step.delivers {b b' : Bus} {h : Happening} {hs : List Happening} (step : Step b h b') (told : Told b hs)
    (delivers : Delivers b hs) : Delivers b' (hs ++ [h]) where
  queued i topic since there := by
    -- Who has just come was sent nothing so far; for all others the account moves on with the step.
    rcases there.of_concat with ⟨rfl, rfl⟩ | ⟨earlier, rfl, before, stays⟩
    · exact ⟨_, step.comes, rfl, rfl⟩
    · obtain ⟨m, live, rfl, account⟩ := delivers.queued i topic earlier before
      obtain ⟨m', live', topic, moved⟩ := step.conserves told.knows live stays
      exact ⟨m', live', topic, account_concat account moved⟩
  answered := forall_cut_concat delivers.answered (step.fits told delivers)

theorem Run.told {b : Bus} {hs : List Happening} (run : Run b hs) : Told b hs := by
  induction run with
  | start =>
    refine ⟨⟨List.nodup_nil, ?_, ?_⟩, ?_, fun _ => rfl, ?_⟩ <;> simp [empty, live?]
  | step _ step ih => exact step.told ih

/-- Whatever happens on a bus, each subscriber that is there has taken, or still finds queued, exactly the events of its
    topic published since it came, in their order; an event is said to reach exactly the subscribers of its topic that
    are there, all that are there are counted, and what is taken is the oldest event not yet taken. Where there is none,
    waiting goes on as long as the bus is open. -/
theorem delivers_of_run {b : Bus} {hs : List Happening} (run : Run b hs) : Delivers b hs := by
  induction run with
  | start =>
    refine ⟨fun i topic since there => ?_, fun before h after cut => ?_⟩
    · obtain ⟨⟨before, cut⟩, -⟩ := there
      simp at cut
    · simp at cut
  | step run step ih => exact step.delivers run.told ih

/-- Two subscribers come, of which one leaves before the event of its topic is published; the other takes its event
    after the bus is closed, and then finds the bus gone. -/
theorem delivers_after_close : ∃ b hs, Run b hs ∧ hs = [.subscribed 0 .reload, .subscribed 1 .sessionExpired,
    .published .reload 1, .counted 2, .left 1, .published (.sessionExpired 401) 0, .counted 1,
    .awaited 0 (.event .reload), .awaited 0 .pending, .published .reload 1, .closed, .tried 0 (some .reload),
    .awaited 0 .closed] ∧ Delivers b hs := by
  have run : Run _ _ := ((((((((((((Run.start.step (.subscribe rfl .reload)).step (.subscribe rfl .sessionExpired)).step
    (.reload rfl)).step (.count rfl)).step (.leave (i := 1) rfl)).step (.publish rfl (.sessionExpired 401))).step
    (.count rfl)).step (.next (i := 0) rfl)).step (.next (i := 0) rfl)).step (.reload rfl)).step (.close rfl)).step
    (.tryNext (i := 0) rfl)).step (.next (i := 0) rfl)
  exact ⟨_, _, run, rfl, delivers_of_run run⟩

end Bus
end MfaConsole
