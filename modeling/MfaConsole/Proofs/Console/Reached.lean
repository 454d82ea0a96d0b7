import MfaConsole.Console.Desk
import MfaConsole.Proofs.Console.Effect

/-! What can come about at a desk when calls are made at any time and the requests in flight are answered in any order.
    The backend lets every request wait, so that each call is a step of its own and so is each reply. -/

namespace MfaConsole
namespace Console

/-- The backend that lets every request wait. -/
def silent : Backend Unit := fun b _ _ => (b, none)

/-- What awaits replies, under the numbers of the requests. -/
abbrev InFlight := List (Nat × Purpose)

def Task.awaited : Task → InFlight
  | .over => []
  | .ending w => [(w.ticket, .ending w.purpose)]
  | .writing w => [(w.ticket, .writing w.purpose)]
  | .details tokens applications =>
    tokens.toList.map (fun w => (w.ticket, .ending w.purpose)) ++ match applications with
      | .waiting ticket => [(ticket, .applications)]
      | .arrived _ => []
  | .watching _ _ refresh => refresh.toList.map fun w => (w.ticket, .ending w.purpose)

/-- A task that was begun by a call. -/
def Task.isCall : Task → Bool
  | .watching _ _ _ => false
  | _ => true

/-- What is awaited of requests numbered from `n` on. -/
def numbered : (n : Nat) → List Purpose → InFlight
  | _, [] => []
  | n, p :: ps => (n, p) :: numbered (n + 1) ps

theorem fst_numbered : ∀ (n : Nat) (ps : List Purpose), (numbered n ps).map Prod.fst = List.range' n ps.length
  | _, [] => rfl
  | n, p :: ps => by
    rw [numbered, List.map_cons, fst_numbered (n + 1) ps, List.length_cons, List.range'_succ]

theorem length_numbered : ∀ (n : Nat) (ps : List Purpose), (numbered n ps).length = ps.length
  | _, [] => rfl
  | n, _ :: ps => congrArg Nat.succ (length_numbered (n + 1) ps)

theorem snd_numbered : ∀ (n : Nat) (ps : List Purpose), (numbered n ps).map Prod.snd = ps
  | _, [] => rfl
  | n, p :: ps => by rw [numbered, List.map_cons, snd_numbered (n + 1) ps]

theorem mem_of_mem_numbered {x : Nat × Purpose} {n : Nat} {ps : List Purpose} (h : x ∈ numbered n ps) : x.2 ∈ ps := by
  have := List.mem_map_of_mem (f := Prod.snd) h
  rwa [snd_numbered] at this

theorem Task.tickets_eq (t : Task) : t.tickets = t.awaited.map Prod.fst := by
  cases t with
  | details tokens applications => cases tokens <;> cases applications <;> rfl
  | watching view mailbox refresh => cases refresh <;> rfl
  | _ => rfl

namespace Desk
variable {d : Desk Unit}

def inFlight {β : Type} (d : Desk β) : InFlight := d.tasks.flatMap Task.awaited

/-- The state of a desk that only calls have been made at: the requests in flight have numbers of their own. -/
structure Tidy (d : Desk Unit) : Prop where
  isCall : ∀ t ∈ d.tasks, t.isCall = true
  nodup : (d.inFlight.map Prod.fst).Nodup
  lt : ∀ x ∈ d.inFlight, x.1 < d.sent

/-! ### Calls -/

theorem console_call (d : Desk Unit) (c : Call) : (d.call silent c).console =
    (d.console.begin c).1.dispatchAll ((d.console.begin c).2.purposes.map Purpose.operation) := by
  rw [call]
  rcases d.console.begin c with ⟨console, _ | _ | _ | _⟩ <;> rfl

theorem servers_call (d : Desk Unit) (c : Call) :
    (d.call silent c).console.servers = (d.console.begin c).1.servers := by
  rw [console_call, (Keeps.dispatchAll _ _).sameServers]

theorem machines_call (d : Desk Unit) (c : Call) :
    (d.call silent c).console.machines = (d.console.begin c).1.machines := by
  rw [console_call, (Keeps.dispatchAll _ _).sameMachines]

theorem inFlight_call (d : Desk Unit) (c : Call) : (d.call silent c).inFlight =
    d.inFlight ++ numbered d.sent (d.console.begin c).2.purposes := by
  rw [call]
  rcases d.console.begin c with ⟨console, _ | _ | _ | _⟩ <;> exact List.flatMap_append

theorem sent_call (d : Desk Unit) (c : Call) :
    (d.call silent c).sent = d.sent + (d.console.begin c).2.purposes.length := by
  rw [call]
  rcases d.console.begin c with ⟨console, _ | _ | _ | _⟩ <;> rfl

theorem isCall_call (h : ∀ t ∈ d.tasks, t.isCall = true) (c : Call) :
    ∀ t ∈ (d.call silent c).tasks, t.isCall = true := by
  rw [call]
  rcases d.console.begin c with ⟨console, _ | _ | _ | _⟩ <;> intro t ht <;>
    rcases List.mem_append.mp ht with ht | ht <;>
    first | exact h t ht | exact List.mem_singleton.mp ht ▸ rfl

theorem Tidy.call (h : d.Tidy) (c : Call) : (d.call silent c).Tidy where
  isCall := isCall_call h.isCall c
  nodup := by
    rw [inFlight_call, List.map_append, fst_numbered, List.nodup_append]
    refine ⟨h.nodup, List.nodup_range', fun n hn m hm => ?_⟩
    obtain ⟨x, hx, rfl⟩ := List.mem_map.mp hn
    have := h.lt x hx
    have := (List.mem_range'_1.mp hm).1
    omega
  lt x hx := by
    rw [inFlight_call] at hx
    rw [sent_call]
    rcases List.mem_append.mp hx with hx | hx
    · exact Nat.lt_add_right _ (h.lt x hx)
    · have := List.mem_map_of_mem (f := Prod.fst) hx
      rw [fst_numbered] at this
      exact (List.mem_range'_1.mp this).2

/-! ### Replies -/

/-- What the reply to a request makes of a desk, up to its tasks: the reply is dealt with, the listing that follows is
    asked for, and applications may then be offered. -/
structure Answers (d d' : Desk Unit) (p : Purpose) (reply : Rest.Reply) : Prop where
  console : ∃ applications, d'.console = ((d.console.answer p reply).1.dispatchAll
    ((d.console.answer p reply).2.toList.map Ending.operation)).offerApplications applications
  sent : d'.sent = d.sent + (d.console.answer p reply).2.toList.length

theorem keeps_offerApplications (c : Console) (applications : Option (KeyMap Json)) :
    Keeps (some .machines) c (c.offerApplications applications) := by
  cases applications with
  | none => exact .refl _ c
  | some a => exact .onMachines rfl rfl rfl

theorem Answers.servers {d' : Desk Unit} {p : Purpose} {reply : Rest.Reply} (h : Answers d d' p reply) :
    d'.console.servers = (d.console.answer p reply).1.servers := by
  obtain ⟨applications, h⟩ := h.console
  rw [h, (keeps_offerApplications _ applications).servers (by simp),
    (Keeps.dispatchAll _ _).sameServers]

theorem Answers.machines {d' : Desk Unit} {p : Purpose} {reply : Rest.Reply} (h : Answers d d' p reply) :
    ∃ applications, d'.console.machines = { (d.console.answer p reply).1.machines with applications } := by
  obtain ⟨offered, h⟩ := h.console
  have same := (Keeps.dispatchAll (v := none) ((d.console.answer p reply).2.toList.map Ending.operation)
    (d.console.answer p reply).1).machines (by simp)
  rw [h, ← same]
  cases offered with
  | none => exact ⟨_, rfl⟩
  | some a => exact ⟨a, rfl⟩

def followUp (d : Desk Unit) (p : Purpose) (reply : Rest.Reply) : InFlight :=
  numbered d.sent ((d.console.answer p reply).2.toList.map Purpose.ending)

theorem resumeEnding_own (d : Desk Unit) (w : Waiting Ending) (reply : Rest.Reply) :
    d.resumeEnding [(w.ticket, reply)] (some w) = (d.change (·.conclude w.purpose reply), none) := by
  rw [resumeEnding, List.lookup_cons_self]

theorem resumeEnding_other (d : Desk Unit) {w : Waiting Ending} {ticket : Nat} (h : w.ticket ≠ ticket)
    (reply : Rest.Reply) : d.resumeEnding [(ticket, reply)] (some w) = (d, some w) := by
  rw [resumeEnding, List.lookup_cons, beq_false_of_ne h]
  rfl

theorem resumeApplications_own (d : Desk Unit) (ticket : Nat) (reply : Rest.Reply) :
    d.resumeApplications [(ticket, reply)] (.waiting ticket) = d.takeApplications reply := by
  rw [resumeApplications, List.lookup_cons_self]

theorem resumeApplications_other (d : Desk Unit) {n ticket : Nat} (h : n ≠ ticket) (reply : Rest.Reply) :
    d.resumeApplications [(ticket, reply)] (.waiting n) = (d, .waiting n) := by
  rw [resumeApplications, List.lookup_cons, beq_false_of_ne h]
  rfl

/-- A task that awaited a reply has dealt with it, and what it awaited before and after stays as it was. -/
structure Resumed (d : Desk Unit) (p : Purpose) (reply : Rest.Reply) (as bs : InFlight) (next : Desk Unit × Task) :
    Prop where
  answers : Answers d next.1 p reply
  awaited : next.2.awaited = as ++ d.followUp p reply ++ bs
  tasks : next.1.tasks = d.tasks
  isCall : next.2.isCall = true

variable {ticket : Nat} {p : Purpose} {as bs : InFlight}

theorem singleton_eq_append_cons {n : Nat} {q : Purpose} (h : [(n, q)] = as ++ (ticket, p) :: bs) :
    as = [] ∧ n = ticket ∧ q = p ∧ bs = [] := by
  cases as with
  | nil =>
    obtain ⟨hx, rfl⟩ := List.cons.inj h
    obtain ⟨rfl, rfl⟩ := Prod.mk.inj hx
    exact ⟨rfl, rfl, rfl, rfl⟩
  | cons a as => simp at h

theorem resumed_writing (d : Desk Unit) (w : Waiting Writing) (reply : Rest.Reply) :
    Resumed d (.writing w.purpose) reply [] [] (d.resume silent [(w.ticket, reply)] (.writing w)) := by
  have woken : d.resume silent [(w.ticket, reply)] (.writing w) = d.afterWriting silent w.purpose reply := by
    rw [resume, List.lookup_cons_self]
  rw [woken, afterWriting]
  rcases hp : d.console.proceed w.purpose reply with ⟨console, _ | e⟩
  · have done : d.console.answer (.writing w.purpose) reply = (console, none) := hp
    refine ⟨⟨⟨none, ?_⟩, ?_⟩, ?_, rfl, rfl⟩
    · rw [done]
      rfl
    · rw [done]
      rfl
    · rw [followUp, done]
      rfl
  · have listing : d.console.answer (.writing w.purpose) reply = (console, some e) := hp
    refine ⟨⟨⟨none, ?_⟩, ?_⟩, ?_, rfl, rfl⟩
    · rw [listing]
      rfl
    · rw [listing]
      rfl
    · rw [followUp, listing]
      rfl

theorem resumed_details {tokens : Option (Waiting Ending)} {applications : Applications}
    (hn : ((Task.details tokens applications).awaited.map Prod.fst).Nodup)
    (h : (Task.details tokens applications).awaited = as ++ (ticket, p) :: bs) (reply : Rest.Reply) :
    Resumed d p reply as bs (d.resume silent [(ticket, reply)] (.details tokens applications)) := by
  cases tokens with
  | none =>
    cases applications with
    | arrived a => simp [Task.awaited] at h
    | waiting n =>
      obtain ⟨rfl, rfl, rfl, rfl⟩ := singleton_eq_append_cons h
      simp only [resume, resumeEnding, resumeApplications_own]
      exact ⟨⟨⟨_, rfl⟩, rfl⟩, rfl, rfl, rfl⟩
  | some w =>
    cases applications with
    | arrived a =>
      obtain ⟨rfl, rfl, rfl, rfl⟩ := singleton_eq_append_cons h
      rw [resume, resumeEnding_own]
      exact ⟨⟨⟨a, rfl⟩, rfl⟩, rfl, rfl, rfl⟩
    | waiting n =>
      have apart : w.ticket ≠ n := by
        simpa [Task.awaited] using hn
      cases as with
      | nil =>
        obtain ⟨hx, rfl⟩ := List.cons.inj h
        obtain ⟨rfl, rfl⟩ := Prod.mk.inj hx
        rw [resume, resumeEnding_own]
        simp only [resumeApplications_other _ apart.symm]
        exact ⟨⟨⟨none, rfl⟩, rfl⟩, rfl, rfl, rfl⟩
      | cons a as =>
        obtain ⟨rfl, rest⟩ := List.cons.inj h
        obtain ⟨rfl, rfl, rfl, rfl⟩ := singleton_eq_append_cons rest
        rw [resume, resumeEnding_other d apart]
        simp only [resumeApplications_own]
        exact ⟨⟨⟨none, rfl⟩, rfl⟩, rfl, rfl, rfl⟩

theorem resumed {task : Task} (hc : task.isCall = true) (hn : (task.awaited.map Prod.fst).Nodup)
    (h : task.awaited = as ++ (ticket, p) :: bs) (reply : Rest.Reply) :
    Resumed d p reply as bs (d.resume silent [(ticket, reply)] task) := by
  cases task with
  | watching => cases hc
  | ending w =>
    obtain ⟨rfl, rfl, rfl, rfl⟩ := singleton_eq_append_cons h
    rw [resume, resumeEnding_own]
    exact ⟨⟨⟨none, rfl⟩, rfl⟩, rfl, rfl, rfl⟩
  | writing w =>
    obtain ⟨rfl, rfl, rfl, rfl⟩ := singleton_eq_append_cons h
    exact resumed_writing d w reply
  | details tokens applications => exact resumed_details hn h reply
  | _ => simp [Task.awaited] at h

theorem exists_task {x : Nat × Purpose} : ∀ {tasks : List Task} {as bs : InFlight},
    tasks.flatMap Task.awaited = as ++ x :: bs → ∃ before task after as' bs', tasks = before ++ task :: after ∧
      task.awaited = as' ++ x :: bs' ∧ as = before.flatMap Task.awaited ++ as' ∧
      bs = bs' ++ after.flatMap Task.awaited
  | [], as, bs, h => by simp at h
  | t :: tasks, as, bs, h => by
    rw [List.flatMap_cons] at h
    -- The request is awaited by the first task, or by one of those after it.
    have cut : (∃ bs', t.awaited = as ++ x :: bs' ∧ bs = bs' ++ tasks.flatMap Task.awaited) ∨
        ∃ as', as = t.awaited ++ as' ∧ tasks.flatMap Task.awaited = as' ++ x :: bs := by
      rcases List.append_eq_append_iff.mp h with ⟨as', ha, hr⟩ | ⟨cs, ha, hr⟩
      · exact Or.inr ⟨as', ha, hr⟩
      · cases cs with
        | nil => exact Or.inr ⟨[], by rw [ha, List.append_nil, List.append_nil], hr.symm⟩
        | cons c cs =>
          obtain ⟨rfl, rfl⟩ := List.cons.inj hr
          exact Or.inl ⟨cs, ha, rfl⟩
    rcases cut with ⟨bs', ha, rfl⟩ | ⟨as', rfl, hr⟩
    · exact ⟨[], t, tasks, as, bs', rfl, ha, rfl, rfl⟩
    · obtain ⟨before, task, after, as', bs', rfl, ha, rfl, rfl⟩ := exists_task hr
      exact ⟨t :: before, task, after, as', bs', rfl, ha, by rw [List.flatMap_cons, List.append_assoc], rfl⟩

theorem Tidy.waitsFor?_eq (h : d.Tidy) {before after : List Task} {task : Task}
    (ht : d.tasks = before ++ task :: after) (ha : task.awaited = as ++ (ticket, p) :: bs) :
    d.waitsFor? ticket = some before.length := by
  have nodup := h.nodup
  rw [inFlight, ht, List.flatMap_append, List.flatMap_cons, ha, List.map_append, List.nodup_append] at nodup
  have absent : before.findIdx? (fun t => t.tickets.contains ticket) = none := by
    refine List.findIdx?_eq_none_iff.mpr fun t hm => ?_
    refine Bool.eq_false_iff.mpr fun hc => ?_
    rw [List.contains_iff_mem, Task.tickets_eq] at hc
    obtain ⟨x, hx, rfl⟩ := List.mem_map.mp hc
    refine nodup.2.2 x.1 (List.mem_map_of_mem (List.mem_flatMap.mpr ⟨t, hm, hx⟩)) x.1 ?_ rfl
    simp
  have present : task.tickets.contains ticket = true := by
    rw [List.contains_iff_mem, Task.tickets_eq, ha]
    simp
  rw [waitsFor?, ht, List.findIdx?_append, absent, List.findIdx?_cons, if_pos present]
  simp

/-- The reply to a request wakes the task that awaits it, and no other. -/
theorem Tidy.deliver_eq (h : d.Tidy) {before after : List Task} {task : Task}
    (ht : d.tasks = before ++ task :: after) (ha : task.awaited = as ++ (ticket, p) :: bs) (reply : Rest.Reply)
    (same : (d.resume silent [(ticket, reply)] task).1.tasks = d.tasks) :
    d.deliver silent [(ticket, reply)] = { (d.resume silent [(ticket, reply)] task).1 with
      tasks := before ++ (d.resume silent [(ticket, reply)] task).2 :: after } := by
  have woken : ([(ticket, reply)].filterMap fun a => d.waitsFor? a.1).eraseDups = [before.length] := by
    rw [List.filterMap_cons, h.waitsFor?_eq ht ha]
    rfl
  have found : d.tasks[before.length]? = some task := by
    rw [ht]
    simp
  rw [deliver, woken, List.foldl_cons, List.foldl_nil, resumeAt, found]
  simp only [same, ht]
  simp

/-- The reply to a request in flight is dealt with, and whatever else is in flight stays so. -/
theorem deliver_awaited (h : d.Tidy) (hf : d.inFlight = as ++ (ticket, p) :: bs) (reply : Rest.Reply) :
    Answers d (d.deliver silent [(ticket, reply)]) p reply ∧
      (d.deliver silent [(ticket, reply)]).inFlight = as ++ d.followUp p reply ++ bs ∧
      ∀ t ∈ (d.deliver silent [(ticket, reply)]).tasks, t.isCall = true := by
  obtain ⟨before, task, after, as', bs', ht, ha, rfl, rfl⟩ := exists_task hf
  have mem : task ∈ d.tasks := by rw [ht]; simp
  have nodup : (task.awaited.map Prod.fst).Nodup :=
    ((List.sublist_flatten_of_mem (List.mem_map_of_mem mem)).map Prod.fst).nodup h.nodup
  have next : Resumed d p reply as' bs' _ := resumed (h.isCall task mem) nodup ha reply
  rw [h.deliver_eq ht ha reply next.tasks]
  refine ⟨⟨next.answers.console, next.answers.sent⟩, ?_, fun t hm => ?_⟩
  · simp only [inFlight, List.flatMap_append, List.flatMap_cons, next.awaited, List.append_assoc]
  · rcases List.mem_append.mp hm with hm | hm
    · exact h.isCall t (by rw [ht]; exact List.mem_append_left _ hm)
    · rcases List.mem_cons.mp hm with rfl | hm
      · exact next.isCall
      · exact h.isCall t (by rw [ht]; exact List.mem_append_right _ (List.mem_cons_of_mem _ hm))

theorem sent_deliver (h : d.Tidy) (hf : d.inFlight = as ++ (ticket, p) :: bs) (reply : Rest.Reply) :
    (d.deliver silent [(ticket, reply)]).sent = d.sent + (d.followUp p reply).length := by
  rw [(deliver_awaited h hf reply).1.sent, followUp, length_numbered, List.length_map]

theorem Tidy.deliver (h : d.Tidy) (hf : d.inFlight = as ++ (ticket, p) :: bs) (reply : Rest.Reply) :
    (d.deliver silent [(ticket, reply)]).Tidy := by
  obtain ⟨-, awaited, isCall⟩ := deliver_awaited h hf reply
  have old : ∀ x ∈ as ++ bs, x.1 < d.sent := fun x hx => h.lt x <| by
    rw [hf]
    exact List.mem_append.mpr ((List.mem_append.mp hx).imp_right (List.mem_cons_of_mem _))
  have new : ∀ n ∈ (d.followUp p reply).map Prod.fst, d.sent ≤ n ∧ n < d.sent + (d.followUp p reply).length := by
    intro n hn
    rw [followUp, fst_numbered] at hn
    rw [followUp, length_numbered]
    exact List.mem_range'_1.mp hn
  have apart : (as ++ bs).map Prod.fst ++ (d.followUp p reply).map Prod.fst |>.Nodup := by
    refine List.nodup_append.mpr ⟨?_, ?_, fun n hn m hm => ?_⟩
    · refine (List.Sublist.map Prod.fst ?_).nodup (hf ▸ h.nodup)
      exact List.Sublist.append_left (List.sublist_cons_self _ _) as
    · rw [followUp, fst_numbered]
      exact List.nodup_range'
    · obtain ⟨x, hx, rfl⟩ := List.mem_map.mp hn
      have := old x hx
      have := (new m hm).1
      omega
  refine ⟨isCall, ?_, fun x hx => ?_⟩
  · rw [awaited]
    refine (List.Perm.nodup_iff ?_).mp apart
    rw [← List.map_append]
    refine List.Perm.map _ ?_
    rw [List.append_assoc, List.append_assoc]
    exact List.Perm.append_left as List.perm_append_comm
  · rw [sent_deliver h hf]
    rw [awaited] at hx
    simp only [List.mem_append] at hx
    rcases hx with (hx | hx) | hx
    · exact Nat.lt_add_right _ (old x (List.mem_append_left _ hx))
    · exact (new x.1 (List.mem_map_of_mem hx)).2
    · exact Nat.lt_add_right _ (old x (List.mem_append_right _ hx))

end Desk

/-! ### Runs -/

/-- What happens at a desk: a call is made, or a request in flight is answered. -/
inductive Event where
  | called (c : Call)
  | answered (p : Purpose) (reply : Rest.Reply)

/-- A desk and what has happened there so far, from a console at rest. A call is made where it is admitted; any request
    in flight may be answered at any time. -/
inductive Reached (admits : Desk Unit → Call → Prop) (first : Console) : Desk Unit → List Event → Prop where
  | start : Reached admits first (.ofConsole first ()) []
  | call {d : Desk Unit} {es : List Event} {c : Call} (h : Reached admits first d es) (hc : admits d c) :
      Reached admits first (d.call silent c) (es ++ [.called c])
  | reply {d : Desk Unit} {es : List Event} {ticket : Nat} {p : Purpose} (h : Reached admits first d es)
      (hp : (ticket, p) ∈ d.inFlight) (reply : Rest.Reply) :
      Reached admits first (d.deliver silent [(ticket, reply)]) (es ++ [.answered p reply])

def anyTime (_ : Desk Unit) (_ : Call) : Prop := True

/-- A call is admitted when no other is in progress. -/
def oneByOne (d : Desk Unit) (_ : Call) : Prop := d.inFlight = []

/-- A setup without states and wordings. -/
def Setup.bare : Setup := { endpoints := .below "", registry := .empty, catalog := .source }

def carriedOut (value : Json) : Rest.Reply :=
  .ok { status := 200,
        body := .object [("result", .object [("status", .bool true), ("value", value)])],
        shapeReason := "" }

namespace Reached
variable {admits : Desk Unit → Call → Prop} {first : Console} {d : Desk Unit} {es : List Event}

theorem tidy (h : Reached admits first d es) : d.Tidy := by
  induction h with
  | start => exact ⟨fun _ h => absurd h List.not_mem_nil, List.nodup_nil, fun _ h => absurd h List.not_mem_nil⟩
  | call _ _ ih => exact ih.call _
  | reply _ hp _ ih =>
    obtain ⟨as, bs, hf⟩ := List.append_of_mem hp
    exact ih.deliver hf _

theorem mono {less : Desk Unit → Call → Prop} (hl : ∀ d c, less d c → admits d c) (h : Reached less first d es) :
    Reached admits first d es := by
  induction h with
  | start => exact .start
  | call _ hc ih => exact ih.call (hl _ _ hc)
  | reply _ hp r ih => exact ih.reply hp r

/-! ### Calls one by one -/

/-- How many of the requests in flight are for a view. -/
def forViews (ps : List Purpose) : Nat := ps.countP (·.view.isSome)

theorem forViews_purposes_le (o : Opening) : forViews o.purposes ≤ 1 := by
  cases o with
  | settled => exact Nat.zero_le 1
  | ending | writing => exact List.countP_le_length
  | details tokens =>
    have tokensAlone : forViews ([.ending tokens] ++ [.applications]) = forViews [.ending tokens] := List.countP_append
    exact Nat.le_trans (Nat.le_of_eq tokensAlone) List.countP_le_length

theorem forViews_followUp_le (d : Desk Unit) (p : Purpose) (reply : Rest.Reply) :
    forViews ((d.followUp p reply).map Prod.snd) ≤ forViews [p] := by
  rw [Desk.followUp, snd_numbered]
  cases ha : (d.console.answer p reply).2 with
  | none => exact Nat.zero_le _
  | some e =>
    refine Nat.le_of_eq ?_
    rw [forViews, forViews, Option.toList_some, List.map_singleton, List.countP_singleton, List.countP_singleton,
      view_answer ha]

/-- Where calls are made one by one, at most one of the requests in flight is for a view. -/
theorem forViews_inFlight_le (h : Reached oneByOne first d es) : forViews (d.inFlight.map Prod.snd) ≤ 1 := by
  induction h with
  | start => exact Nat.zero_le 1
  | call _ hc _ =>
    rw [Desk.inFlight_call, hc, List.nil_append, snd_numbered]
    exact forViews_purposes_le _
  | @reply d es ticket p h hp reply ih =>
    obtain ⟨as, bs, hf⟩ := List.append_of_mem hp
    have next := forViews_followUp_le d p reply
    rw [(Desk.deliver_awaited h.tidy hf reply).2.1]
    simp only [hf, forViews, List.map_append, List.map_cons, List.countP_append, List.countP_cons,
      List.countP_nil] at ih next ⊢
    omega

/-- Where calls are made one by one, a request for a view is the only one in flight. -/
theorem view_of_mem_rest (h : Reached oneByOne first d es) {x y : Nat × Purpose} {as bs : InFlight}
    (hf : d.inFlight = as ++ y :: bs) (hy : y.2.view.isSome = true) (hx : x ∈ as ++ bs) : x.2.view = none := by
  have few := h.forViews_inFlight_le
  rw [hf, forViews, List.map_append, List.map_cons, List.countP_append, List.countP_cons, if_pos hy] at few
  have absent : (as ++ bs).countP (·.2.view.isSome) = 0 := by
    rw [List.countP_map, List.countP_map] at few
    rw [List.countP_append]
    simp only [Function.comp_def] at few
    omega
  simpa using List.countP_eq_zero.mp absent x hx

end Reached
end Console
end MfaConsole
