import MfaConsole.Proofs.Bus.Delivery
import MfaConsole.Proofs.Bus.Sparing
import MfaConsole.Proofs.Console.Reached
import MfaConsole.Proofs.Notices

/-! What the console makes of the failures that are handed to its session. One handler changes the notices, the session
    and the bus, and each of the three can be told from the history of failures alone, whatever others do to the notices
    and on the bus meanwhile. -/

namespace MfaConsole

/-- The status with which an answer rejects the session. -/
def Rest.Failure.rejected? : Rest.Failure → Option Nat
  | .status code _ _ => if code = 401 ∨ code = 403 then some code else none
  | .transport _ | .decode _ => none

/-- What others do on the bus: they come, leave, take events and count, and have the views read their data again. The
    bus stays open as long as the console holds it. -/
def Bus.Happening.IsOthers : Bus.Happening → Prop
  | .published e _ => e.topic = .reload
  | .closed => False
  | _ => True

namespace Console

/-! ### Histories -/

/-- What happens to the console: a failure is handed to its session, a notice is added or dismissed apart from that, or
    others do something on the bus. -/
inductive Occasion where
  | failed (f : Rest.Failure)
  | noticed (d : Notices.Deed)
  | onBus (h : Bus.Happening)

/-- What becomes of a console in a history of occasions. -/
inductive Course (first : Console) : Console → List Occasion → Prop where
  | start : Course first first []
  | fail {c : Console} {os : List Occasion} (course : Course first c os) (f : Rest.Failure) :
      Course first (c.fail f) (os ++ [.failed f])
  | notice {c : Console} {os : List Occasion} (course : Course first c os) (d : Notices.Deed) :
      Course first (c.changeNotices fun n => (n.perform d).1) (os ++ [.noticed d])
  | others {c : Console} {os : List Occasion} (course : Course first c os) {h : Bus.Happening} {b : Bus}
      (step : Bus.Step c.bus h b) (ofOthers : h.IsOthers) : Course first { c with bus := b } (os ++ [.onBus h])

def Occasion.rejected? : Occasion → Option Nat
  | .failed f => f.rejected?
  | .noticed _ | .onBus _ => none

/-- The statuses of the rejections, in their order. -/
def rejections (os : List Occasion) : List Nat := os.filterMap (·.rejected?)

/-- What is asked of the queue of notices. Every failure asks for one notice of an error. -/
def Occasion.deed? (catalog : Locale.Catalog) : Occasion → Option Notices.Deed
  | .failed f => some (.add .error (if f.rejected?.isSome then catalog.translate expiredMessage else f.message))
  | .noticed d => some d
  | .onBus _ => none

def deeds (catalog : Locale.Catalog) (os : List Occasion) : List Notices.Deed := os.filterMap (·.deed? catalog)

def Occasion.taken? (i : Nat) : Occasion → Option MfaConsole.Event
  | .onBus h => h.taken? i
  | _ => none

/-- The events that a subscriber took. -/
def taken (i : Nat) (os : List Occasion) : List MfaConsole.Event := os.filterMap (·.taken? i)

/-- What a failure changes. -/
structure Hears (f : Rest.Failure) (c c' : Console) : Prop where
  setup : c'.setup = c.setup
  notices : c'.notices = c.notices.add .error
    (if f.rejected?.isSome then c.setup.catalog.translate expiredMessage else f.message)
  session : c'.session = f.rejected?.elim c.session fun status => { loggedIn := false, expiredStatus := some status }
  bus : c'.bus = f.rejected?.elim c.bus fun status => (c.bus.publish (.sessionExpired status)).1

theorem handleFailure_eq (c : Console) (f : Rest.Failure) : c.handleFailure f =
    match f.rejected? with
    | some status => (((c.changeSession { loggedIn := false, expiredStatus := some status }).warn
        expiredMessage).publish (.sessionExpired status)).1
    | none => c.complain f.message := by
  cases f with
  | transport reason | decode reason => rfl
  | status code message body =>
    by_cases rejects : code = 401 ∨ code = 403 <;>
      simp [handleFailure, Rest.Failure.code?, Rest.Failure.isRejection, Rest.Failure.rejected?, rejects]

theorem hears_fail (c : Console) (f : Rest.Failure) : Hears f c (c.fail f) := by
  rw [fail, handleFailure_eq]
  cases h : f.rejected? <;> exact ⟨rfl, by rw [h]; rfl, by rw [h]; rfl, by rw [h]; rfl⟩

/-! ### Mailboxes -/

/-- What those who listen to a topic are sent. -/
def Occasion.sent? (topic : Topic) : Occasion → Option MfaConsole.Event
  | .failed f => if topic = .sessionExpired then f.rejected?.map .sessionExpired else none
  | .onBus h => h.published? topic
  | .noticed _ => none

def sent (topic : Topic) (os : List Occasion) : List MfaConsole.Event := os.filterMap (·.sent? topic)

/-- Whoever is there has taken, or still finds queued, what it was sent since it came. -/
def Queues (b : Bus) (os : List Occasion) : Prop :=
  ∀ i topic since, Since (.onBus (.subscribed i topic)) (.onBus (.left i)) os since →
    ∃ m, b.live? i = some m ∧ m.topic = topic ∧ taken i since ++ m.queue = sent topic since

/-- A mailbox is kept in an occasion, and its queue loses what is taken and gains what is sent. -/
def Moves (b b' : Bus) (o : Occasion) : Prop :=
  ∀ i m, b.live? i = some m → o ≠ .onBus (.left i) → ∃ m', b'.live? i = some m' ∧ m'.topic = m.topic ∧
    m.queue ++ sent m.topic [o] = taken i [o] ++ m'.queue

theorem Queues.concat {b b' : Bus} {os : List Occasion} {o : Occasion} (queues : Queues b os) (moves : Moves b b' o)
    (comes : ∀ i topic, o = .onBus (.subscribed i topic) →
      b'.live? i = some { topic, queue := [], live := true }) : Queues b' (os ++ [o]) := by
  intro i topic since there
  rcases there.of_concat with ⟨came, rfl⟩ | ⟨earlier, rfl, before, stays⟩
  · exact ⟨_, comes i topic came, rfl, rfl⟩
  · obtain ⟨m, live, rfl, account⟩ := queues i topic earlier before
    obtain ⟨m', live', topic, moved⟩ := moves i m live stays
    exact ⟨m', live', topic, account_concat account moved⟩

/-- Nothing is sent or taken. -/
theorem moves_refl (b : Bus) {o : Occasion} (silent : ∀ topic, o.sent? topic = none) (still : ∀ i, o.taken? i = none) :
    Moves b b o := fun i m live _ => ⟨m, live, rfl, by simp [sent, taken, silent, still]⟩

theorem moves_rejected {b : Bus} (reaches : b.Reaches) {f : Rest.Failure} {status : Nat}
    (rejected : f.rejected? = some status) : Moves b (b.publish (.sessionExpired status)).1 (.failed f) := by
  intro i m live _
  obtain ⟨m', live', topic, moved⟩ :=
    (Bus.Step.publish reaches.isOpen (.sessionExpired status)).conserves reaches.knows live (by simp)
  refine ⟨m', live', topic, ?_⟩
  -- How many were reached makes no difference to what is sent.
  have same : sent m.topic [.failed f] = Bus.published m.topic [.published (.sessionExpired status) 0] := by
    cases m.topic <;> simp [sent, Occasion.sent?, rejected, Bus.published, Bus.Happening.published?, Event.topic]
  rw [same]
  exact moved

theorem moves_others {b b' : Bus} (reaches : b.Reaches) {h : Bus.Happening} (step : Bus.Step b h b') :
    Moves b b' (.onBus h) := by
  intro i m live stays
  exact step.conserves reaches.knows live fun left => stays (left ▸ rfl)

/-! ### What the console keeps of its history -/

theorem rejections_concat (os : List Occasion) (o : Occasion) :
    rejections (os ++ [o]) = rejections os ++ o.rejected?.toList := filterMap_concat _ os o

theorem deeds_concat (catalog : Locale.Catalog) (os : List Occasion) (o : Occasion) :
    deeds catalog (os ++ [o]) = deeds catalog os ++ (o.deed? catalog).toList := filterMap_concat _ os o

/-- What is known of a console from its history. -/
structure Tracks (setup : Setup) (c : Console) (os : List Occasion) : Prop where
  configured : c.setup = setup
  notices : c.notices = Notices.after (deeds setup.catalog os)
  session : c.session = { loggedIn := (rejections os).isEmpty, expiredStatus := (rejections os).getLast? }
  reaches : c.bus.Reaches
  queues : Queues c.bus os
  ofOthers : ∀ h, .onBus h ∈ os → h.IsOthers

namespace Tracks
variable {setup : Setup} {c : Console} {os : List Occasion}

theorem start (setup : Setup) (authorization : Option String) : Tracks setup (.start setup authorization) [] where
  configured := rfl
  notices := rfl
  session := rfl
  reaches := Bus.reaches_empty
  queues i topic since there := by simp [Since] at there
  ofOthers h hh := absurd hh List.not_mem_nil

theorem fail (tracks : Tracks setup c os) (f : Rest.Failure) : Tracks setup (c.fail f) (os ++ [.failed f]) := by
  have hears := hears_fail c f
  constructor
  case configured => exact hears.setup.trans tracks.configured
  case notices =>
    rw [hears.notices, deeds_concat, Notices.after_append, ← tracks.notices, tracks.configured]
    rfl
  case session =>
    rw [hears.session, rejections_concat, tracks.session]
    cases h : f.rejected? <;> simp [Occasion.rejected?, h]
  case reaches =>
    rw [hears.bus]
    cases f.rejected? with
    | none => exact tracks.reaches
    | some status => exact tracks.reaches.publish _
  case queues =>
    refine tracks.queues.concat ?_ (fun i topic came => by cases came)
    rw [hears.bus]
    cases h : f.rejected? with
    | none => exact moves_refl c.bus (fun topic => by simp [Occasion.sent?, h]) fun _ => rfl
    | some status => exact moves_rejected tracks.reaches h
  case ofOthers => simpa using tracks.ofOthers

theorem notice (tracks : Tracks setup c os) (d : Notices.Deed) :
    Tracks setup (c.changeNotices fun n => (n.perform d).1) (os ++ [.noticed d]) where
  configured := tracks.configured
  notices := by
    rw [deeds_concat, Notices.after_append, ← tracks.notices]
    rfl
  session := by
    rw [rejections_concat, Occasion.rejected?, Option.toList_none, List.append_nil]
    exact tracks.session
  reaches := tracks.reaches
  queues := tracks.queues.concat (moves_refl c.bus (fun _ => rfl) fun _ => rfl) fun i topic came => by cases came
  ofOthers := by simpa using tracks.ofOthers

theorem others (tracks : Tracks setup c os) {h : Bus.Happening} {b : Bus} (step : Bus.Step c.bus h b)
    (ofOthers : h.IsOthers) : Tracks setup { c with bus := b } (os ++ [.onBus h]) where
  configured := tracks.configured
  notices := by
    rw [deeds_concat, Occasion.deed?, Option.toList_none, List.append_nil]
    exact tracks.notices
  session := by
    rw [rejections_concat, Occasion.rejected?, Option.toList_none, List.append_nil]
    exact tracks.session
  reaches := ⟨step.knows tracks.reaches.knows,
    step.isOpen.mpr ⟨tracks.reaches.isOpen, fun closed => by rw [closed] at ofOthers; exact ofOthers⟩⟩
  queues := by
    refine tracks.queues.concat (moves_others tracks.reaches step) fun i topic came => ?_
    cases came
    exact step.comes
  ofOthers g hg := by
    rcases List.mem_append.mp hg with earlier | last
    · exact tracks.ofOthers g earlier
    · cases List.mem_singleton.mp last
      exact ofOthers

end Tracks

section Course
variable {first c : Console} {os : List Occasion} {setup : Setup} {authorization : Option String}

theorem Course.tracks (course : Course (.start setup authorization) c os) : Tracks setup c os := by
  induction course with
  | start => exact .start setup authorization
  | fail _ f ih => exact ih.fail f
  | notice _ d ih => exact ih.notice d
  | others _ step ofOthers ih => exact ih.others step ofOthers

end Course

end Console
end MfaConsole
