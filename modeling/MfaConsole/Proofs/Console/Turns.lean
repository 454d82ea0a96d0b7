import MfaConsole.Proofs.Bus.Sparing
import MfaConsole.Proofs.Console.Reports

/-! The turns that a desk takes: calls are made, tasks are woken with the replies that have arrived for them, events are
    published, and views are watched or given up, in any order. A turn leaves alone the mailboxes that are not its
    own. -/

namespace MfaConsole
namespace Console

/-! ### Turns -/

inductive Turn where
  | call (c : Call)
  /-- A task goes on, with the replies that have arrived. -/
  | wake (task : Nat) (arrived : List (Nat × Rest.Reply))
  | publish (e : MfaConsole.Event)
  | watch (view : Watched)
  | abandon (task : Nat)

namespace Desk
variable {β : Type} (answer : Backend β)

def publish (d : Desk β) (e : MfaConsole.Event) : Desk β := d.change fun c => (c.publish e).1

def turn (d : Desk β) : Turn → Desk β
  | .call c => d.call answer c
  | .wake i arrived => d.resumeAt answer arrived i
  | .publish e => d.publish e
  | .watch view => (d.bind view).1
  | .abandon i => d.abandon i

def turns (d : Desk β) (ts : List Turn) : Desk β := ts.foldl (turn answer) d

theorem turns_append (d : Desk β) (ts us : List Turn) :
    d.turns answer (ts ++ us) = (d.turns answer ts).turns answer us :=
  List.foldl_append

/-- Replies that arrive are turns of the tasks that wait for them. -/
theorem deliver_eq_turns (d : Desk β) (arrived : List (Nat × Rest.Reply)) : d.deliver answer arrived =
    d.turns answer ((arrived.filterMap fun a => d.waitsFor? a.1).eraseDups.map (.wake · arrived)) := by
  rw [deliver, turns, List.foldl_map]
  rfl

theorem turns_publish (e : MfaConsole.Event) (ns : List Nat) : ∀ (d : Desk β) (reached : List Nat),
    d.turns answer (List.replicate ns.length (.publish e)) = { d with console := (ns.foldl (fun (c, reached) _ =>
      let (c, n) := Console.publish c e
      (c, reached ++ [n])) (d.console, reached)).1 } := by
  induction ns with
  | nil => exact fun _ _ => rfl
  | cons n ns ih => exact fun d _ => ih (d.publish e) _

/-- Reloads are turns in which they are published, and then turns of all tasks. -/
theorem reload_eq_turns (d : Desk β) (times : Nat) : (d.reload answer times).1 =
    d.turns answer (List.replicate times (.publish .reload) ++ (List.range d.tasks.length).map (.wake · [])) := by
  have published := turns_publish answer .reload (List.range times) d []
  rw [List.length_range] at published
  rw [turns_append, published, turns, List.foldl_map]
  rfl

end Desk

/-! ### Mailboxes of tasks -/

/-- The mailbox a task has. -/
def Task.mailbox? : Task → Option Nat
  | .watching _ mailbox _ => some mailbox
  | _ => none

theorem topic_of_published? {f : Rest.Failure} {e : MfaConsole.Event} (h : f.published? = some e) :
    e.topic ≠ .reload := by
  rw [Rest.Failure.published?] at h
  split at h
  · obtain ⟨status, -, rfl⟩ := Option.map_eq_some_iff.mp h
    exact fun reload => by cases reload
  · cases h

/-- What is handed over to the session only tells those that listen for rejections. -/
theorem Reports.spares {fs : List Rest.Failure} {c c' : Console} (h : Reports fs c c') (i : Nat) :
    c.bus.Spares i c'.bus := by
  rw [h.bus]
  refine .publishAll i (fun e he => ?_) c.bus
  obtain ⟨f, -, published⟩ := List.mem_filterMap.mp he
  exact topic_of_published? published

namespace Desk
variable {β : Type} {answer : Backend β} {i : Nat} {a b c d : Desk β}

/-- The tasks stay as they are, and so does a mailbox for reloads. -/
structure Spares (i : Nat) (d d' : Desk β) : Prop where
  tasks : d'.tasks = d.tasks
  bus : d.console.bus.Spares i d'.console.bus

namespace Spares

theorem refl (i : Nat) (d : Desk β) : Spares i d d := ⟨rfl, .refl i _⟩

theorem trans (h : Spares i a b) (k : Spares i b c) : Spares i a c := ⟨k.tasks.trans h.tasks, h.bus.trans k.bus⟩

theorem of_reports {fs : List Rest.Failure} (tasks : b.tasks = a.tasks) (h : Reports fs a.console b.console) :
    Spares i a b :=
  ⟨tasks, h.spares i⟩

theorem send (d : Desk β) (o : Rest.Operation) : Spares i d (d.send answer o).1 := ⟨rfl, .refl i _⟩

theorem conclude (d : Desk β) (e : Ending) (reply : Rest.Reply) : Spares i d (d.change (·.conclude e reply)) :=
  of_reports rfl (reports_conclude d.console e reply)

theorem ask (d : Desk β) (e : Ending) : Spares i d (d.ask answer e).1 := by
  have sent : Spares i d (d.send answer e.operation).1 := send d e.operation
  rw [Desk.ask]
  split <;> rename_i h <;> rw [h] at sent
  · exact sent.trans (conclude _ e _)
  · exact sent

theorem takeApplications (d : Desk β) (reply : Rest.Reply) : Spares i d (d.takeApplications reply).1 :=
  of_reports rfl (reports_applicationsListed d.console reply)

theorem askApplications (d : Desk β) : Spares i d (d.askApplications answer).1 := by
  have sent : Spares i d (d.send answer .applications).1 := send d .applications
  rw [Desk.askApplications]
  split <;> rename_i h <;> rw [h] at sent
  · exact sent.trans (takeApplications _ _)
  · exact sent

theorem resumeEnding (d : Desk β) (arrived : List (Nat × Rest.Reply)) (w : Option (Waiting Ending)) :
    Spares i d (d.resumeEnding arrived w).1 := by
  rw [Desk.resumeEnding.eq_def]
  split
  · exact refl i d
  · split
    · exact conclude d _ _
    · exact refl i d

theorem resumeApplications (d : Desk β) (arrived : List (Nat × Rest.Reply)) (a : Applications) :
    Spares i d (d.resumeApplications arrived a).1 := by
  rw [Desk.resumeApplications.eq_def]
  split
  · exact refl i d
  · split
    · exact takeApplications d _
    · exact refl i d

end Spares

/-- A task has gone on: a mailbox for reloads is as it was, and so is which mailbox the task has. -/
structure Goes (i : Nat) (d : Desk β) (mailbox : Option Nat) (next : Desk β × Task) : Prop where
  spares : Spares i d next.1
  mailbox : next.2.mailbox? = mailbox

namespace Goes

theorem after {mailbox : Option Nat} {next : Desk β × Task} (h : Spares i a b) (k : Goes i b mailbox next) :
    Goes i a mailbox next :=
  ⟨h.trans k.spares, k.mailbox⟩

theorem askTask (d : Desk β) (e : Ending) : Goes i d none (d.askTask answer e) := by
  have asked : Spares i d (d.ask answer e).1 := .ask d e
  rw [Desk.askTask]
  split <;> rename_i h <;> rw [h] at asked <;> exact ⟨asked, rfl⟩

theorem afterWriting (d : Desk β) (w : Writing) (reply : Rest.Reply) :
    Goes i d none (d.afterWriting answer w reply) := by
  rw [Desk.afterWriting]
  have proceeded := reports_proceed d.console w reply
  rcases h : d.console.proceed w reply with ⟨console, next⟩
  rw [h] at proceeded
  have spared : Spares i d { d with console } := .of_reports rfl proceeded
  cases next with
  | none => exact ⟨spared, rfl⟩
  | some e => exact (askTask { d with console } e).after spared

theorem write (d : Desk β) (w : Writing) : Goes i d none (d.write answer w) := by
  have sent : Spares i d (d.send answer w.operation).1 := .send d w.operation
  rw [Desk.write]
  split <;> rename_i h <;> rw [h] at sent
  · exact (afterWriting _ w _).after sent
  · exact ⟨sent, rfl⟩

theorem joinDetails (d : Desk β) (tokens : Option (Waiting Ending)) (a : Applications) :
    Goes i d none (d.joinDetails tokens a) := by
  rw [Desk.joinDetails.eq_def]
  split
  · exact ⟨.of_reports rfl (reports_offerApplications d.console _), rfl⟩
  · exact ⟨.refl i d, rfl⟩

theorem askDetails (d : Desk β) (tokens : Ending) : Goes i d none (d.askDetails answer tokens) :=
  ((joinDetails _ _ _).after (.askApplications _)).after (.ask d tokens)

theorem follow (d : Desk β) (o : Opening) : Goes i d none (d.follow answer o) := by
  cases o with
  | settled => exact ⟨.refl i d, rfl⟩
  | ending e => exact askTask d e
  | writing w => exact write d w
  | details tokens => exact askDetails d tokens

end Goes

/-- A call adds a task without a mailbox. -/
theorem call_eq (answer : Backend β) (i : Nat) (d : Desk β) (c : Call) : ∃ t : Task, t.mailbox? = none ∧
    (d.call answer c).tasks = d.tasks ++ [t] ∧ d.console.bus.Spares i (d.call answer c).console.bus := by
  have begun : Spares i d { d with console := (d.console.begin c).1 } := .of_reports rfl (reports_begin d.console c)
  have followed :
      Goes i d none (Desk.follow answer { d with console := (d.console.begin c).1 } (d.console.begin c).2) :=
    (Goes.follow _ _).after begun
  exact ⟨_, followed.mailbox, congrArg (· ++ [_]) followed.spares.tasks, followed.spares.bus⟩

/-! ### Other mailboxes -/

theorem reports_refresh (c : Console) (view : Watched) : Reports [] c (c.refresh view).1 := by
  cases view with
  | servers | clients => exact .of_happen rfl rfl rfl rfl
  | machines =>
    rw [refresh, refreshMachines]
    split <;> exact .of_happen rfl rfl rfl rfl

/-- A view is refreshed for the reloads in its mailbox, and the other mailboxes are as they were. -/
theorem Spares.refreshAll (view : Watched) {mailbox : Nat} (h : mailbox ≠ i) (limit : Nat) (d : Desk β) :
    Spares i d (d.refreshAll answer view mailbox limit).1 := by
  induction limit generalizing d with
  | zero => exact refl i d
  | succ limit ih =>
    rw [Desk.refreshAll]
    have taken := Bus.Spares.take d.console.bus h
    split
    · exact refl i d
    · next bus _ ht =>
      rw [ht] at taken
      let begun : Desk β := { d with console := ({ d.console with bus }.refresh view).1 }
      have spared : Spares i d begun :=
        ⟨rfl, taken.trans ((reports_refresh { d.console with bus } view).spares i)⟩
      have asked : Spares i begun (begun.ask answer ({ d.console with bus }.refresh view).2).1 := .ask begun _
      dsimp only
      split <;> next ha =>
        rw [ha] at asked
        first | exact spared.trans asked | exact (spared.trans asked).trans (ih _)

theorem Goes.watch (d : Desk β) (view : Watched) {mailbox : Nat} (h : mailbox ≠ i) :
    Goes i d (some mailbox) (d.watch answer view mailbox) :=
  ⟨.refreshAll view h _ d, rfl⟩

/-- A task that goes on leaves all mailboxes as they were but its own. -/
theorem Goes.resume (d : Desk β) (arrived : List (Nat × Rest.Reply)) {t : Task} (h : t.mailbox? ≠ some i) :
    Goes i d t.mailbox? (d.resume answer arrived t) := by
  cases t with
  | ending w =>
    have resumed := Spares.resumeEnding (i := i) d arrived (some w)
    rw [Desk.resume]
    split <;> rename_i h <;> rw [h] at resumed <;> exact ⟨resumed, rfl⟩
  | writing w =>
    rw [Desk.resume]
    split
    · exact afterWriting d _ _
    · exact ⟨.refl i d, rfl⟩
  | details tokens applications =>
    exact ((joinDetails _ _ _).after (.resumeApplications _ arrived _)).after (.resumeEnding d arrived _)
  | watching view mailbox refresh =>
    have other : mailbox ≠ i := fun same => h (congrArg some same)
    have resumed := Spares.resumeEnding (i := i) d arrived refresh
    rw [Desk.resume]
    split <;> rename_i h <;> rw [h] at resumed
    · exact ⟨resumed, rfl⟩
    · exact (watch _ view other).after resumed
  | _ => exact ⟨.refl i d, rfl⟩

/-! ### What a turn touches -/

/-- The mailbox of the task of a number. -/
def mailboxAt? (d : Desk β) (j : Nat) : Option Nat := d.tasks[j]?.bind Task.mailbox?

theorem exists_other (mailbox : Option Nat) : ∃ i, mailbox ≠ some i := by
  cases mailbox with
  | none => exact ⟨0, by simp⟩
  | some m => exact ⟨m + 1, by simp⟩

theorem tasks_resume (d : Desk β) (arrived : List (Nat × Rest.Reply)) (t : Task) :
    (d.resume answer arrived t).1.tasks = d.tasks ∧ (d.resume answer arrived t).2.mailbox? = t.mailbox? := by
  obtain ⟨i, other⟩ := exists_other t.mailbox?
  have gone : Goes i d t.mailbox? (d.resume answer arrived t) := .resume d arrived other
  exact ⟨gone.spares.tasks, gone.mailbox⟩

theorem resumeAt_eq (d : Desk β) (arrived : List (Nat × Rest.Reply)) {j : Nat} {t : Task} (h : d.tasks[j]? = some t) :
    d.resumeAt answer arrived j = { (d.resume answer arrived t).1 with
      tasks := d.tasks.set j (d.resume answer arrived t).2 } := by
  rw [resumeAt, h, ← (tasks_resume d arrived t).1]

end Desk

/-- The task that a turn is one of. -/
def Turn.task? : Turn → Option Nat
  | .wake j _ | .abandon j => some j
  | _ => none

theorem Turn.of_task? {t : Turn} {w : Nat} (own : t.task? = some w) :
    (∃ arrived, t = .wake w arrived) ∨ t = .abandon w := by
  cases t with
  | wake j arrived =>
    obtain rfl : j = w := Option.some.inj own
    exact Or.inl ⟨arrived, rfl⟩
  | abandon j =>
    obtain rfl : j = w := Option.some.inj own
    exact Or.inr rfl
  | _ => cases own

/-- The turns that may change the mailbox of a task are its own. -/
def Turn.mailbox? {β : Type} (d : Desk β) (t : Turn) : Option Nat := t.task?.bind d.mailboxAt?

namespace Desk
variable {β : Type} {answer : Backend β} {i : Nat} {d : Desk β} {t : Turn}

theorem spares_turn (ht : t ≠ .publish .reload) (h : t.mailbox? d ≠ some i) :
    d.console.bus.Spares i (d.turn answer t).console.bus := by
  cases t with
  | call c =>
    obtain ⟨-, -, -, spared⟩ := call_eq answer i d c
    exact spared
  | wake j arrived =>
    rw [turn, resumeAt]
    split
    · exact .refl i _
    · next task hj =>
      have other : task.mailbox? ≠ some i := by simpa [Turn.mailbox?, Turn.task?, mailboxAt?, hj] using h
      exact (Goes.resume d arrived other).spares.bus
  | publish e =>
    refine .publish i _ fun reload => ht ?_
    cases e with
    | reload => rfl
    | sessionExpired status => cases reload
  | watch view => exact .subscribe i _ .reload
  | abandon j =>
    rw [turn, abandon]
    split
    · next mailbox _ hj =>
      have other : mailbox ≠ i := by simpa [Turn.mailbox?, Turn.task?, mailboxAt?, hj, Task.mailbox?] using h
      exact .unsubscribe _ other
    · exact .refl i _
    · exact .refl i _

/-- Tasks are only added, and a turn changes no task but its own. -/
theorem getElem?_turn (d : Desk β) (t : Turn) {j : Nat} (hj : j < d.tasks.length) :
    j < (d.turn answer t).tasks.length ∧ (t.task? ≠ some j → (d.turn answer t).tasks[j]? = d.tasks[j]?) := by
  have added (u : Task) : j < (d.tasks ++ [u]).length ∧ (d.tasks ++ [u])[j]? = d.tasks[j]? := by
    rw [List.length_append, List.getElem?_append_left hj]
    exact ⟨Nat.lt_add_right _ hj, rfl⟩
  have changed (l : Nat) (u : Task) : j < (d.tasks.set l u).length ∧
      (l ≠ j → (d.tasks.set l u)[j]? = d.tasks[j]?) := by
    rw [List.length_set]
    exact ⟨hj, fun other => List.getElem?_set_ne other⟩
  cases t with
  | call c =>
    obtain ⟨u, -, tasks, -⟩ := call_eq answer 0 d c
    rw [turn, tasks]
    exact (added u).imp_right fun same _ => same
  | wake l arrived =>
    cases hl : d.tasks[l]? with
    | none =>
      rw [turn, resumeAt, hl]
      exact ⟨hj, fun _ => rfl⟩
    | some u =>
      rw [turn, resumeAt_eq d arrived hl]
      exact (changed l _).imp_right fun same h => same fun eq => h (congrArg some eq)
  | publish e => exact ⟨hj, fun _ => rfl⟩
  | watch view => exact (added _).imp_right fun same _ => same
  | abandon l =>
    have other (h : Turn.task? (.abandon l) ≠ some j) : l ≠ j := fun same => h (congrArg some same)
    rw [turn, abandon]
    split
    · exact (changed l _).imp_right fun same h => same (other h)
    · exact (changed l _).imp_right fun same h => same (other h)
    · exact ⟨hj, fun _ => rfl⟩

theorem bind_mailbox?_concat (tasks : List Task) (u : Task) (j : Nat) : (tasks ++ [u])[j]?.bind Task.mailbox? =
    if j = tasks.length then u.mailbox? else tasks[j]?.bind Task.mailbox? := by
  rcases Nat.lt_trichotomy j tasks.length with lt | rfl | gt
  · rw [if_neg (Nat.ne_of_lt lt), List.getElem?_append_left lt]
  · rw [if_pos rfl, List.getElem?_concat_length]
    rfl
  · rw [if_neg (Nat.ne_of_gt gt), List.getElem?_eq_none (by simp; omega), List.getElem?_eq_none (Nat.le_of_lt gt)]

theorem bind_mailbox?_set {tasks : List Task} {l : Nat} {t : Task} (h : tasks[l]? = some t) (u : Task) (j : Nat) :
    (tasks.set l u)[j]?.bind Task.mailbox? = if j = l then u.mailbox? else tasks[j]?.bind Task.mailbox? := by
  by_cases same : j = l
  · subst same
    rw [if_pos rfl, List.getElem?_set_self (List.getElem?_eq_some_iff.mp h).1]
    rfl
  · rw [if_neg same, List.getElem?_set_ne (Ne.symm same)]

/-- A task keeps the mailbox it has until it is given up, and only a task that watches a view comes with one. -/
theorem mailboxAt?_turn (d : Desk β) (t : Turn) (j : Nat) : (d.turn answer t).mailboxAt? j =
    match t with
    | .watch _ => if j = d.tasks.length then some d.console.bus.mailboxes.length else d.mailboxAt? j
    | .abandon l => if j = l then none else d.mailboxAt? j
    | _ => d.mailboxAt? j := by
  cases t with
  | call c =>
    obtain ⟨u, nothing, tasks, -⟩ := call_eq answer 0 d c
    rw [turn, mailboxAt?, tasks, bind_mailbox?_concat, nothing]
    split
    · next last => rw [mailboxAt?, List.getElem?_eq_none (Nat.le_of_eq last.symm)]; rfl
    · rfl
  | wake l arrived =>
    rw [turn]
    cases hl : d.tasks[l]? with
    | none => rw [resumeAt, hl]
    | some u =>
      rw [resumeAt_eq d arrived hl, mailboxAt?, bind_mailbox?_set hl, (tasks_resume d arrived u).2]
      split
      · next own => rw [mailboxAt?, own, hl]; rfl
      · rfl
  | publish e => rfl
  | watch view => exact bind_mailbox?_concat _ _ _
  | abandon l =>
    rw [turn, abandon]
    cases hl : d.tasks[l]? with
    | none =>
      dsimp only
      split
      · next own => rw [mailboxAt?, own, hl]; rfl
      · rfl
    | some u => cases u <;> exact bind_mailbox?_set hl _ _

/-! ### Runs of turns -/

/-- The bus reaches whoever is there, and each watched view has a mailbox of its own. -/
structure Sound (d : Desk β) : Prop where
  reaches : d.console.bus.Reaches
  lt : ∀ j m, d.mailboxAt? j = some m → m < d.console.bus.mailboxes.length
  own : ∀ j l m, d.mailboxAt? j = some m → d.mailboxAt? l = some m → j = l

theorem sound_start (setup : Setup) (authorization : Option String) (backend : β) :
    (ofConsole (.start setup authorization) backend).Sound where
  reaches := Bus.reaches_empty
  lt _ _ h := by simp [mailboxAt?, ofConsole] at h
  own _ _ _ h := by simp [mailboxAt?, ofConsole] at h

theorem reaches_turn (h : d.console.bus.Reaches) (t : Turn) : (d.turn answer t).console.bus.Reaches ∧
    d.console.bus.mailboxes.length ≤ (d.turn answer t).console.bus.mailboxes.length := by
  by_cases ht : t = .publish .reload
  · subst ht
    exact ⟨h.publish .reload, Nat.le_of_eq (Bus.length_publish _ _).symm⟩
  · obtain ⟨i, other⟩ := exists_other (t.mailbox? d)
    have spared : d.console.bus.Spares i (d.turn answer t).console.bus := spares_turn ht other
    exact ⟨spared.reaches h, spared.grows⟩

/-- Whatever mailbox a task has after a turn, it had before, or it has just come with it. -/
theorem mailboxAt?_of_turn {j m : Nat} (h : (d.turn answer t).mailboxAt? j = some m) : d.mailboxAt? j = some m ∨
    (∃ view, t = .watch view) ∧ j = d.tasks.length ∧ m = d.console.bus.mailboxes.length := by
  rw [mailboxAt?_turn] at h
  cases t with
  | watch view =>
    dsimp only at h
    split at h
    · next last => exact Or.inr ⟨⟨view, rfl⟩, last, (Option.some.inj h).symm⟩
    · exact Or.inl h
  | abandon l =>
    dsimp only at h
    split at h
    · cases h
    · exact Or.inl h
  | _ => exact Or.inl h

theorem Sound.turn (h : d.Sound) (t : Turn) : (d.turn answer t).Sound where
  reaches := (reaches_turn h.reaches t).1
  lt j m hm := by
    rcases mailboxAt?_of_turn hm with old | ⟨⟨view, rfl⟩, -, rfl⟩
    · exact Nat.lt_of_lt_of_le (h.lt j m old) (reaches_turn h.reaches t).2
    · simp [Desk.turn, bind, Bus.subscribe]
  own j l m hj hl := by
    rcases mailboxAt?_of_turn hj with hj | ⟨-, rfl, rfl⟩
    · rcases mailboxAt?_of_turn hl with hl | ⟨-, -, rfl⟩
      · exact h.own j l m hj hl
      · exact absurd (h.lt j _ hj) (Nat.lt_irrefl _)
    · rcases mailboxAt?_of_turn hl with hl | ⟨-, rfl, -⟩
      · exact absurd (h.lt l _ hl) (Nat.lt_irrefl _)
      · rfl

theorem Sound.turns (h : d.Sound) (ts : List Turn) : (d.turns answer ts).Sound := by
  induction ts generalizing d with
  | nil => exact h
  | cons t ts ih => exact ih (h.turn t)

end Desk

end Console
end MfaConsole
