import MfaConsole.Proofs.Console.TokenView
import MfaConsole.Proofs.Console.Turns

/-! A watched view is refreshed once for each reload that is published while it is watched. Reloads wait in the view's
    mailbox while a refresh is under way, so that none is lost, no two become one, and refreshes come one after the
    other, whatever turns the desk takes meanwhile. -/

namespace MfaConsole
namespace Console

/-! ### What a refresh asks for -/

/-- What a view asks for when it is refreshed: the view of machines asks for the tokens of the machine chosen, if one
    is, and else for the machines of the resolver; a name that is empty is left out. -/
def refreshRequest (c : Console) (view : Watched) : Rest.Request :=
  let listing (url : String) (query : List (String × String)) : Rest.Request :=
    { method := .get, url := c.setup.endpoints.base ++ url, query, body := none, authorization := c.authorization }
  match view, c.machines.selected with
  | .servers, _ => listing "/edumfaserver/" []
  | .clients, _ => listing "/client/" []
  | .machines, some machine =>
    listing "/machine/token" ([("machineid", machine.1), ("resolver", machine.2)].filter (·.2 ≠ ""))
  | .machines, none => listing "/machine/" ((c.machines.resolver.filter (· ≠ "")).toList.map ("resolver", ·))

theorem asked_refresh (c : Console) (view : Watched) :
    c.asked (c.refresh view).2.operation = c.refreshRequest view := by
  cases view with
  | servers | clients => rfl
  | machines =>
    unfold refresh refreshMachines refreshRequest
    cases c.machines.selected with
    | some machine =>
      show c.asked (.tokens (.ofMachine machine.1 machine.2)) = _
      rw [asked, Rest.Operation.request, Wire.TokenFilter.query_ofMachine]
      rfl
    | none =>
      -- An empty name is taken out of the resolver before it is stored, and once more when it is asked for.
      have twice : (c.machines.resolver.filter (· ≠ "")).filter (· ≠ "") = c.machines.resolver.filter (· ≠ "") := by
        rw [Option.filter_filter]
        simp only [Bool.and_self]
      show c.asked (.machines (.ofResolver (c.machines.resolver.filter (· ≠ "")))) = _
      rw [asked, Rest.Operation.request, Wire.MachineFilter.query_ofResolver, twice]
      rfl

/-- Refreshes of two consoles ask for the same. -/
structure SameAim (a b : Console) : Prop where
  setup : SameSetup a b
  selected : b.machines.selected = a.machines.selected
  resolver : b.machines.resolver.filter (· ≠ "") = a.machines.resolver.filter (· ≠ "")

namespace SameAim
variable {a b c : Console}

theorem refl (c : Console) : SameAim c c := ⟨.refl c, rfl, rfl⟩

theorem trans (h : SameAim a b) (k : SameAim b c) : SameAim a c :=
  ⟨h.setup.trans k.setup, k.selected.trans h.selected, k.resolver.trans h.resolver⟩

theorem refreshRequest (h : SameAim a b) (view : Watched) : b.refreshRequest view = a.refreshRequest view := by
  simp only [Console.refreshRequest, h.setup.setup, h.setup.authorization, h.selected, h.resolver]

theorem of_machines (setup : SameSetup a b) (h : b.machines = a.machines) : SameAim a b :=
  ⟨setup, by rw [h], by rw [h]⟩

theorem refresh (c : Console) (view : Watched) : SameAim c (c.refresh view).1 := by
  cases view with
  | servers | clients => exact .of_machines ⟨rfl, rfl⟩ rfl
  | machines =>
    rw [Console.refresh, refreshMachines]
    cases hs : c.machines.selected with
    | some machine => exact ⟨⟨rfl, rfl⟩, rfl, rfl⟩
    | none => exact ⟨⟨rfl, rfl⟩, hs.symm, by simp [listMachines, changeMachines, happen, MachinesView.beginList]⟩

theorem resolver_answered (v : MachinesView) (p : Purpose) (reply : Rest.Reply) :
    (v.answered p reply).resolver = v.resolver := by
  cases p with
  | applications => rfl
  | writing w =>
    rw [MachinesView.answered]
    split <;> rfl
  | ending e =>
    cases e with
    | machineList filter =>
      rw [MachinesView.answered]
      cases (Rest.Operation.machines filter).outcome reply <;> rfl
    | tokenList filter =>
      rw [MachinesView.answered]
      cases (Rest.Operation.tokens filter).outcome reply <;> rfl
    | _ => rfl

theorem conclude (c : Console) (e : Ending) (reply : Rest.Reply) : SameAim c (c.conclude e reply) := by
  have machines := machines_answer c (.ending e) reply
  rw [answer] at machines
  refine ⟨sameSetup_conclude c e reply, ?_, ?_⟩ <;> rw [machines]
  · exact selected_answered _ _ _
  · rw [resolver_answered]

end SameAim

/-! ### What the backend sees of a task -/

/-- A request as the backend sees it: its number, and the reply if it comes at once. -/
structure Noted where
  ticket : Nat
  request : Rest.Request
  reply : Option Rest.Reply

/-- A backend that notes what it is asked. -/
def noting {β : Type} (answer : Backend β) : Backend (β × List Noted) := fun b ticket r =>
  let (next, reply) := answer b.1 ticket r
  ((next, b.2 ++ [⟨ticket, r, reply⟩]), reply)

/-- A sign of a task at work: it has asked for something, or the reply it waited for has arrived. -/
inductive Sign where
  | asked (n : Noted)
  | replied (ticket : Nat)

def Sign.asked? : Sign → Option Noted
  | .asked n => some n
  | .replied _ => none

/-- Nothing is asked for before the reply to what was asked for last has arrived. The numbers are those of the requests
    under way before and after. -/
inductive InTurn : Option Nat → List Sign → Option Nat → Prop where
  | nil (under : Option Nat) : InTurn under [] under
  | answered {n : Noted} {signs : List Sign} {last : Option Nat} (reply : n.reply.isSome = true)
      (h : InTurn none signs last) : InTurn none (.asked n :: signs) last
  | waiting {n : Noted} {signs : List Sign} {last : Option Nat} (reply : n.reply = none)
      (h : InTurn (some n.ticket) signs last) : InTurn none (.asked n :: signs) last
  | replied {ticket : Nat} {signs : List Sign} {last : Option Nat} (h : InTurn none signs last) :
      InTurn (some ticket) (.replied ticket :: signs) last

theorem InTurn.append {first middle last : Option Nat} {signs more : List Sign} (h : InTurn first signs middle)
    (k : InTurn middle more last) : InTurn first (signs ++ more) last := by
  induction h with
  | nil => exact k
  | answered reply _ ih => exact .answered reply (ih k)
  | waiting reply _ ih => exact .waiting reply (ih k)
  | replied _ ih => exact .replied (ih k)

namespace Desk
variable {β : Type} {answer : Backend β}

theorem sameAim_ask (d : Desk β) (e : Ending) : SameAim d.console (d.ask answer e).1.console := by
  have dispatched : SameAim d.console (d.send answer e.operation).1.console := .of_machines ⟨rfl, rfl⟩ rfl
  rw [ask]
  split <;> rename_i h <;> rw [h] at dispatched
  · exact dispatched.trans (.conclude _ e _)
  · exact dispatched

/-- What has been asked of a backend that notes it is noted; the desk waits if there is no reply at once. -/
theorem ask_noting (answer : Backend β) (d : Desk (β × List Noted)) (e : Ending) : ∃ n : Noted,
    n.request = d.console.asked e.operation ∧ (d.ask (noting answer) e).1.backend.2 = d.backend.2 ++ [n] ∧
      (n.reply = none ∧ (d.ask (noting answer) e).2 = some ⟨n.ticket, e⟩ ∨
        n.reply.isSome = true ∧ (d.ask (noting answer) e).2 = none) := by
  let n : Noted := ⟨d.sent, d.console.asked e.operation, (answer d.backend.1 d.sent (d.console.asked e.operation)).2⟩
  have noted : (d.send (noting answer) e.operation).1.backend.2 = d.backend.2 ++ [n] := rfl
  have reply : (d.send (noting answer) e.operation).2 = (n.ticket, n.reply) := rfl
  refine ⟨n, rfl, ?_⟩
  rw [ask]
  split <;> rename_i h <;> rw [h] at noted reply
  · exact ⟨noted, Or.inr ⟨by rw [← (Prod.mk.inj reply).2]; rfl, rfl⟩⟩
  · obtain ⟨ticket, reply⟩ := Prod.mk.inj reply
    exact ⟨noted, Or.inl ⟨reply.symm, by rw [ticket]⟩⟩

/-- A mailbox is one for reloads, and its subscriber is there. -/
structure Listens (k : Nat) (d : Desk β) : Prop where
  reaches : d.console.bus.Reaches
  live : ∃ m, d.console.bus.live? k = some m ∧ m.topic = .reload

theorem Listens.of_spares {k : Nat} {d d' : Desk β} (h : Listens k d) (spared : d.console.bus.Spares k d'.console.bus) :
    Listens k d' ∧ d'.mailed k = d.mailed k := by
  obtain ⟨m, live, topic⟩ := h.live
  have reload (m' : Mailbox) (live' : d.console.bus.live? k = some m') : m'.topic = .reload :=
    Option.some.inj (live.symm.trans live') ▸ topic
  have same := spared.same h.reaches (Bus.lt_of_live? live) reload
  exact ⟨⟨spared.reaches h.reaches, m, same.trans live, topic⟩, by rw [mailed, mailed, same]⟩

/-- What a view's refreshes have come to: for each reload taken out of the mailbox one request has been sent, each after
    the reply to the one before; reloads are left there only if a reply is still to come. -/
structure Refreshed (view : Watched) (k : Nat) (d : Desk (β × List Noted)) (asked : List Noted)
    (next : Desk (β × List Noted) × Option (Waiting Ending)) : Prop where
  noted : next.1.backend.2 = d.backend.2 ++ asked
  counted : asked.length + next.1.mailed k = d.mailed k
  requests : ∀ n ∈ asked, n.request = d.console.refreshRequest view
  inTurn : InTurn none (asked.map .asked) (next.2.map (·.ticket))
  drained : next.2 = none → next.1.mailed k = 0
  listens : Listens k next.1

theorem Refreshed.of_empty {view : Watched} {k : Nat} {d : Desk (β × List Noted)} (h : Listens k d)
    (empty : d.mailed k = 0) : Refreshed view k d [] (d, none) where
  noted := (List.append_nil _).symm
  counted := Nat.zero_add _
  requests _ h := absurd h List.not_mem_nil
  inTurn := .nil none
  drained _ := empty
  listens := h

/-- A refresh begins, with what an event was taken out of. -/
def refreshOn (d : Desk β) (view : Watched) (bus : Bus) : Desk β × Ending :=
  ({ d with console := ({ d.console with bus }.refresh view).1 }, ({ d.console with bus }.refresh view).2)

theorem listens_refreshOn (view : Watched) {k : Nat} {d : Desk β} (h : Listens k d) {bus : Bus} {e : MfaConsole.Event}
    (taken : d.console.bus.take k = (bus, some e)) :
    Listens k (d.refreshOn view bus).1 ∧ (d.refreshOn view bus).1.mailed k + 1 = d.mailed k := by
  obtain ⟨m, live, topic⟩ := h.live
  have same : (d.refreshOn view bus).1.console.bus = bus := (reports_refresh { d.console with bus } view).bus
  have reaches := h.reaches.take k
  have after := Bus.live?_take d.console.bus k k
  have oldest := Bus.take_snd d.console.bus k
  rw [taken] at reaches after oldest
  rw [live, Option.bind_some] at oldest
  rw [if_pos rfl, live, Option.map_some] at after
  obtain ⟨rest, queue⟩ := List.head?_eq_some_iff.mp oldest.symm
  refine ⟨⟨by rw [same]; exact reaches, { m with queue := m.queue.tail }, by rw [same]; exact after, topic⟩, ?_⟩
  rw [mailed, mailed, same, after, live, Option.elim_some, Option.elim_some, queue]
  rfl

theorem mailed_of_take_none {k : Nat} {d : Desk β} (h : Listens k d) {bus : Bus}
    (taken : d.console.bus.take k = (bus, none)) : d.mailed k = 0 := by
  obtain ⟨m, live, -⟩ := h.live
  have oldest := Bus.take_snd d.console.bus k
  rw [taken, live, Option.bind_some] at oldest
  rw [mailed, live, Option.elim_some, List.head?_eq_none_iff.mp oldest.symm, List.length_nil]

theorem refreshAll_of_take (view : Watched) {k limit : Nat} {d : Desk β} {bus : Bus} {e : MfaConsole.Event}
    (taken : d.console.bus.take k = (bus, some e)) : d.refreshAll answer view k (limit + 1) =
      match (d.refreshOn view bus).1.ask answer (d.refreshOn view bus).2 with
      | (d, some w) => (d, some w)
      | (d, none) => d.refreshAll answer view k limit := by
  rw [refreshAll, taken]
  rfl

theorem refreshAll_of_take_none (view : Watched) {k limit : Nat} {d : Desk β} {bus : Bus}
    (taken : d.console.bus.take k = (bus, none)) : d.refreshAll answer view k (limit + 1) = (d, none) := by
  rw [refreshAll, taken]

/-- One reload has been taken out of the mailbox and one request has been sent for it. -/
structure RefreshedOnce (view : Watched) (k : Nat) (d : Desk (β × List Noted)) (n : Noted)
    (next : Desk (β × List Noted) × Option (Waiting Ending)) : Prop where
  noted : next.1.backend.2 = d.backend.2 ++ [n]
  counted : next.1.mailed k + 1 = d.mailed k
  request : n.request = d.console.refreshRequest view
  waits : n.reply = none ∧ next.2.map (·.ticket) = some n.ticket ∨ n.reply.isSome = true ∧ next.2 = none
  aim : SameAim d.console next.1.console
  listens : Listens k next.1

theorem exists_refreshedOnce (answer : Backend β) (view : Watched) {k : Nat} {d : Desk (β × List Noted)}
    (h : Listens k d) {bus : Bus} {e : MfaConsole.Event} (taken : d.console.bus.take k = (bus, some e)) :
    ∃ n, RefreshedOnce view k d n ((d.refreshOn view bus).1.ask (noting answer) (d.refreshOn view bus).2) := by
  let given : Console := { d.console with bus }
  have unaffected : SameAim d.console given := .of_machines ⟨rfl, rfl⟩ rfl
  have aim : SameAim d.console (d.refreshOn view bus).1.console := unaffected.trans (.refresh given view)
  have operation : given.asked (d.refreshOn view bus).2.operation = given.refreshRequest view :=
    asked_refresh given view
  have backend : (d.refreshOn view bus).1.backend = d.backend := rfl
  obtain ⟨listens, less⟩ := listens_refreshOn view h taken
  generalize d.refreshOn view bus = begun at *
  obtain ⟨n, request, noted, asks⟩ := ask_noting answer begun.1 begun.2
  have spared : Spares k begun.1 (begun.1.ask (noting answer) begun.2).1 := .ask _ _
  obtain ⟨listens, kept⟩ := listens.of_spares spared.bus
  exact ⟨n, {
    noted := by rw [noted, backend]
    counted := by rw [kept, less]
    request := by
      rw [request, aim.setup.asked]
      exact operation
    waits := asks.imp_left fun ⟨reply, waits⟩ => ⟨reply, by rw [waits]; rfl⟩
    aim := aim.trans (sameAim_ask _ _)
    listens }⟩

theorem RefreshedOnce.waiting {view : Watched} {k : Nat} {d after : Desk (β × List Noted)} {n : Noted}
    {w : Waiting Ending} (h : RefreshedOnce view k d n (after, some w)) : Refreshed view k d [n] (after, some w) := by
  obtain ⟨reply, ticket⟩ := h.waits.resolve_right fun none => by cases none.2
  exact {
    noted := h.noted
    counted := (Nat.add_comm _ _).trans h.counted
    requests := fun n' hn => List.mem_singleton.mp hn ▸ h.request
    inTurn := .waiting reply (ticket ▸ .nil _)
    drained := fun none => by cases none
    listens := h.listens }

theorem RefreshedOnce.cons {view : Watched} {k : Nat} {d after : Desk (β × List Noted)} {n : Noted}
    {asked : List Noted} {next : Desk (β × List Noted) × Option (Waiting Ending)}
    (h : RefreshedOnce view k d n (after, none)) (more : Refreshed view k after asked next) :
    Refreshed view k d (n :: asked) next := by
  obtain ⟨reply, -⟩ := h.waits.resolve_left fun some => by cases some.2
  exact {
    noted := by rw [more.noted, h.noted, List.append_assoc, List.singleton_append]
    counted := by
      rw [← h.counted, ← more.counted, List.length_cons]
      omega
    requests := fun n' hn => by
      rcases List.mem_cons.mp hn with rfl | hn
      · exact h.request
      · rw [more.requests n' hn, h.aim.refreshRequest]
    inTurn := .answered reply more.inTurn
    drained := more.drained
    listens := more.listens }

theorem exists_refreshed (answer : Backend β) (view : Watched) {k : Nat} (limit : Nat) {d : Desk (β × List Noted)}
    (h : Listens k d) (few : d.mailed k ≤ limit) :
    ∃ asked, Refreshed view k d asked (d.refreshAll (noting answer) view k limit) := by
  induction limit generalizing d with
  | zero => exact ⟨[], .of_empty h (Nat.le_zero.mp few)⟩
  | succ limit ih =>
    rcases taken : d.console.bus.take k with ⟨bus, _ | e⟩
    · rw [refreshAll_of_take_none view taken]
      exact ⟨[], .of_empty h (mailed_of_take_none h taken)⟩
    · rw [refreshAll_of_take view taken]
      obtain ⟨n, once⟩ := exists_refreshedOnce answer view h taken
      rcases asked : (d.refreshOn view bus).1.ask (noting answer) (d.refreshOn view bus).2 with ⟨after, _ | w⟩ <;>
        rw [asked] at once
      · have less := once.counted
        obtain ⟨asked, more⟩ := ih once.listens (by dsimp only at less ⊢; omega)
        exact ⟨n :: asked, once.cons more⟩
      · exact ⟨[n], once.waiting⟩

/-! ### The turns of a task that watches -/

/-- The refresh under way of a task that watches a view. -/
def underWay? (d : Desk β) (w : Nat) : Option Nat :=
  match d.tasks[w]? with
  | some (.watching _ _ refresh) => refresh.map (·.ticket)
  | _ => none

/-- The task waits for a reload, and there is none in its mailbox. -/
def Stalled (d : Desk β) (w : Nat) : Prop :=
  ∃ view k, d.tasks[w]? = some (.watching view k none) ∧ d.mailed k = 0

theorem stalled_of_idle {d : Desk β} {w k : Nat} (at_ : d.mailboxAt? w = some k) (idle : d.underWay? w = none)
    (empty : d.mailed k = 0) : d.Stalled w := by
  rw [mailboxAt?, Option.bind_eq_some_iff] at at_
  obtain ⟨task, found, at_⟩ := at_
  rw [underWay?, found] at idle
  cases task with
  | watching view k' refresh =>
    obtain rfl : k' = k := Option.some.inj at_
    obtain rfl : refresh = none := Option.map_eq_none_iff.mp idle
    exact ⟨view, k', found, empty⟩
  | _ => exact absurd at_.symm (Option.some_ne_none k)

/-- The replies that are waited for, of those that have arrived. -/
def repliesTo (under : Option Nat) (arrived : List (Nat × Rest.Reply)) : List Nat :=
  under.toList.filter fun ticket => (arrived.lookup ticket).isSome

/-- The signs of a task in a turn: whether the reply it waits for has arrived, and what it then asks for. -/
def signs (answer : Backend β) (w : Nat) (d : Desk (β × List Noted)) : Turn → List Sign
  | .wake j arrived =>
    if j = w then
      (repliesTo (d.underWay? w) arrived).map .replied ++
        ((d.turn (noting answer) (.wake j arrived)).backend.2.drop d.backend.2.length).map .asked
    else []
  | _ => []

/-- The signs of a task in turns. -/
def signsIn (answer : Backend β) (w : Nat) : Desk (β × List Noted) → List Turn → List Sign
  | _, [] => []
  | d, t :: ts => d.signs answer w t ++ (d.turn (noting answer) t).signsIn answer w ts

/-- A task watches a view, and finds the reloads in a mailbox of its own. -/
structure Watches (w : Nat) (view : Watched) (k : Nat) (refresh : Option (Waiting Ending)) (d : Desk β) : Prop where
  sound : d.Sound
  task : d.tasks[w]? = some (.watching view k refresh)
  listens : Listens k d

/-- What a task that watches a view has done when it went on. -/
structure Woken (view : Watched) (k : Nat) (d : Desk (β × List Noted)) (refresh : Option (Waiting Ending))
    (replied : List Nat) (asked : List Noted) (refresh' : Option (Waiting Ending)) (after : Desk (β × List Noted)) :
    Prop where
  noted : after.backend.2 = d.backend.2 ++ asked
  counted : asked.length + after.mailed k = d.mailed k
  requests : ∀ n ∈ asked, n.request = d.console.refreshRequest view
  inTurn : InTurn (refresh.map (·.ticket)) (replied.map .replied ++ asked.map .asked) (refresh'.map (·.ticket))
  drained : refresh' = none → after.mailed k = 0
  listens : Listens k after

theorem Refreshed.woken {view : Watched} {k : Nat} {d begun after : Desk (β × List Noted)} {asked : List Noted}
    {refresh refresh' : Option (Waiting Ending)} {replied : List Nat}
    (h : Refreshed view k begun asked (after, refresh')) (noted : begun.backend = d.backend)
    (mailed : begun.mailed k = d.mailed k) (aim : SameAim d.console begun.console)
    (before : InTurn (refresh.map (·.ticket)) (replied.map .replied) none) :
    Woken view k d refresh replied asked refresh' after where
  noted := by rw [h.noted, noted]
  counted := by rw [h.counted, mailed]
  requests n hn := by rw [h.requests n hn, aim.refreshRequest]
  inTurn := before.append h.inTurn
  drained := h.drained
  listens := h.listens

theorem exists_woken (answer : Backend β) (view : Watched) {k : Nat} {d : Desk (β × List Noted)} (h : Listens k d)
    (refresh : Option (Waiting Ending)) (arrived : List (Nat × Rest.Reply)) : ∃ asked refresh' after,
      d.resume (noting answer) arrived (.watching view k refresh) = (after, .watching view k refresh') ∧
        Woken view k d refresh (repliesTo (refresh.map (·.ticket)) arrived) asked refresh' after := by
  have goesOn (begun : Desk (β × List Noted)) (listens : Listens k begun) : ∃ asked refresh' after,
      begun.watch (noting answer) view k = (after, .watching view k refresh') ∧
        Refreshed view k begun asked (after, refresh') := by
    obtain ⟨asked, refreshed⟩ := exists_refreshed answer view (begun.mailed k) listens (Nat.le_refl _)
    exact ⟨asked, _, _, rfl, refreshed⟩
  cases refresh with
  | none =>
    obtain ⟨asked, refresh', after, watched, refreshed⟩ := goesOn d h
    exact ⟨asked, refresh', after, watched, refreshed.woken rfl rfl (.refl _) (.nil none)⟩
  | some w =>
    cases hl : arrived.lookup w.ticket with
    | none =>
      have silent : repliesTo (some w.ticket) arrived = [] := by simp [repliesTo, hl]
      refine ⟨[], some w, d, by simp only [resume, resumeEnding, hl], ?_⟩
      rw [Option.map_some, silent]
      exact ⟨(List.append_nil _).symm, Nat.zero_add _, fun n hn => absurd hn List.not_mem_nil, .nil _,
        fun none => absurd none (Option.some_ne_none w), h⟩
    | some reply =>
      have told : repliesTo (some w.ticket) arrived = [w.ticket] := by simp [repliesTo, hl]
      obtain ⟨listens, kept⟩ := h.of_spares (Spares.conclude d w.purpose reply).bus
      obtain ⟨asked, refresh', after, watched, refreshed⟩ := goesOn _ listens
      refine ⟨asked, refresh', after, by simp only [resume, resumeEnding, hl, watched], ?_⟩
      rw [Option.map_some, told]
      exact refreshed.woken rfl kept (.conclude d.console w.purpose reply) (.replied (.nil none))

end Desk

def Turn.isReload : Turn → Bool
  | .publish .reload => true
  | _ => false

namespace Desk
variable {β : Type} {answer : Backend β} {w k : Nat} {view : Watched} {refresh : Option (Waiting Ending)}

theorem listens_publish {d : Desk β} (h : Listens k d) :
    Listens k (d.publish .reload) ∧ (d.publish .reload).mailed k = d.mailed k + 1 := by
  obtain ⟨m, live, topic⟩ := h.live
  have after : (d.publish .reload).console.bus.live? k = some (m.put .reload) := by
    show (d.console.bus.publish .reload).1.live? k = _
    rw [Bus.live?_publish h.reaches.knows h.reaches.isOpen, live, Option.map_some, topic]
    rfl
  refine ⟨⟨h.reaches.publish .reload, _, after, topic⟩, ?_⟩
  rw [mailed, mailed, after, live]
  exact List.length_append

/-- What a turn comes to for a task that watches a view. -/
structure Moves (answer : Backend β) (w : Nat) (view : Watched) (k : Nat) (refresh : Option (Waiting Ending))
    (d : Desk (β × List Noted)) (t : Turn) (refresh' : Option (Waiting Ending)) : Prop where
  watches : Watches w view k refresh' (d.turn (noting answer) t)
  inTurn : InTurn (refresh.map (·.ticket)) (d.signs answer w t) (refresh'.map (·.ticket))
  counted : ((d.signs answer w t).filterMap Sign.asked?).length + (d.turn (noting answer) t).mailed k =
    d.mailed k + if t.isReload then 1 else 0
  requests : ∀ n ∈ (d.signs answer w t).filterMap Sign.asked?,
    n.request = d.console.refreshRequest view
  drained : (∃ arrived, t = .wake w arrived) → refresh' = none → (d.turn (noting answer) t).mailed k = 0

theorem filterMap_asked? (replied : List Nat) (asked : List Noted) :
    (replied.map Sign.replied ++ asked.map Sign.asked).filterMap Sign.asked? = asked := by
  rw [List.filterMap_append, List.filterMap_map, List.filterMap_map]
  simp [Function.comp_def, Sign.asked?]

theorem moves_wake {d : Desk (β × List Noted)} (h : Watches w view k refresh d)
    (arrived : List (Nat × Rest.Reply)) : ∃ refresh', Moves answer w view k refresh d (.wake w arrived) refresh' := by
  obtain ⟨asked, refresh', after, resumed, woken⟩ := exists_woken answer view h.listens refresh arrived
  have turned : d.turn (noting answer) (.wake w arrived) =
      { after with tasks := d.tasks.set w (.watching view k refresh') } := by
    rw [turn, resumeAt_eq d arrived h.task, resumed]
  have signs : d.signs answer w (.wake w arrived) =
      (repliesTo (refresh.map (·.ticket)) arrived).map .replied ++ asked.map .asked := by
    rw [Desk.signs, if_pos rfl, turned, underWay?, h.task, woken.noted, List.drop_left]
  have sound : (d.turn (noting answer) (.wake w arrived)).Sound := h.sound.turn _
  have task : (d.tasks.set w (Task.watching view k refresh'))[w]? = some (.watching view k refresh') :=
    List.getElem?_set_self (List.getElem?_eq_some_iff.mp h.task).1
  refine ⟨refresh', ?_⟩
  rw [turned] at sound
  constructor
  case watches => exact turned ▸ ⟨sound, task, ⟨woken.listens.reaches, woken.listens.live⟩⟩
  case inTurn => exact signs ▸ woken.inTurn
  case counted =>
    rw [signs, filterMap_asked?, turned]
    exact woken.counted
  case requests =>
    rw [signs, filterMap_asked?]
    exact woken.requests
  case drained =>
    rw [turned]
    exact fun _ => woken.drained

/-- A turn that is not one of the task only brings a reload to its mailbox, if it publishes one. -/
theorem Watches.turn_other {d : Desk β} (h : Watches w view k refresh d) {t : Turn} (other : t.task? ≠ some w) :
    Watches w view k refresh (d.turn answer t) ∧
      (d.turn answer t).mailed k = d.mailed k + if t.isReload then 1 else 0 := by
  have sound : (d.turn answer t).Sound := h.sound.turn t
  have task : (d.turn answer t).tasks[w]? = d.tasks[w]? :=
    (getElem?_turn d t (List.getElem?_eq_some_iff.mp h.task).1).2 other
  have mine : d.mailboxAt? w = some k := by rw [mailboxAt?, h.task]; rfl
  have untouched : t.mailbox? d ≠ some k := fun touched => by
    obtain ⟨j, hj, at_⟩ := Option.bind_eq_some_iff.mp touched
    exact other (h.sound.own j w k at_ mine ▸ hj)
  by_cases reload : t = .publish .reload
  · subst reload
    obtain ⟨listens, more⟩ := listens_publish h.listens
    exact ⟨⟨sound, task.trans h.task, listens⟩, more⟩
  · have silent : t.isReload = false := by
      cases t with
      | publish e =>
        cases e with
        | reload => exact absurd rfl reload
        | sessionExpired status => rfl
      | _ => rfl
    have spared : d.console.bus.Spares k (d.turn answer t).console.bus := spares_turn reload untouched
    obtain ⟨listens, kept⟩ := h.listens.of_spares spared
    exact ⟨⟨sound, task.trans h.task, listens⟩, by rw [kept, silent]; rfl⟩

theorem signs_other {d : Desk (β × List Noted)} {t : Turn} (other : t.task? ≠ some w) :
    d.signs answer w t = [] := by
  cases t with
  | wake j arrived => exact if_neg fun same => other (congrArg some same)
  | _ => rfl

/-- Until it is given up, a task watches on. -/
theorem exists_moves (answer : Backend β) {d : Desk (β × List Noted)} (h : Watches w view k refresh d) {t : Turn}
    (stays : t ≠ .abandon w) : ∃ refresh', Moves answer w view k refresh d t refresh' := by
  by_cases own : t.task? = some w
  · rcases Turn.of_task? own with ⟨arrived, rfl⟩ | rfl
    · exact moves_wake h arrived
    · exact absurd rfl stays
  · obtain ⟨watches, counted⟩ := h.turn_other own
    have silent : d.signs answer w t = [] := signs_other own
    refine ⟨refresh, watches, ?_, ?_, ?_, ?_⟩
    · rw [silent]
      exact .nil _
    · rw [silent, counted]
      exact Nat.zero_add _
    · rw [silent]
      exact fun n hn => absurd hn List.not_mem_nil
    · rintro ⟨arrived, rfl⟩
      exact absurd rfl own

/-! ### Runs -/

/-- What turns come to for a task that watches a view and is not given up. -/
structure MovesOn (answer : Backend β) (w : Nat) (view : Watched) (k : Nat) (refresh : Option (Waiting Ending))
    (d : Desk (β × List Noted)) (ts : List Turn) (refresh' : Option (Waiting Ending)) : Prop where
  watches : Watches w view k refresh' (d.turns (noting answer) ts)
  inTurn : InTurn (refresh.map (·.ticket)) (d.signsIn answer w ts) (refresh'.map (·.ticket))
  counted : ((d.signsIn answer w ts).filterMap Sign.asked?).length + (d.turns (noting answer) ts).mailed k =
    d.mailed k + ts.countP Turn.isReload

theorem exists_movesOn (answer : Backend β) {d : Desk (β × List Noted)} (h : Watches w view k refresh d)
    {ts : List Turn} (stays : .abandon w ∉ ts) : ∃ refresh', MovesOn answer w view k refresh d ts refresh' := by
  induction ts generalizing d refresh with
  | nil => exact ⟨refresh, h, .nil _, Nat.zero_add _⟩
  | cons t ts ih =>
    obtain ⟨middle, moves⟩ := exists_moves answer h fun same => stays (same ▸ List.mem_cons_self)
    obtain ⟨last, run⟩ := ih moves.watches fun later => stays (List.mem_cons_of_mem t later)
    refine ⟨last, run.watches, moves.inTurn.append run.inTurn, ?_⟩
    have first := moves.counted
    have rest := run.counted
    have turned : d.turns (noting answer) (t :: ts) = (d.turn (noting answer) t).turns (noting answer) ts := rfl
    rw [signsIn, List.filterMap_append, List.length_append, List.countP_cons, turned]
    omega

/-- A task has been given up, and its mailbox with it. -/
structure Gone (w k : Nat) (d : Desk β) : Prop where
  sound : d.Sound
  task : d.tasks[w]? = some .over
  lt : k < d.console.bus.mailboxes.length
  left : d.console.bus.live? k = none
  nobody : ∀ j, d.mailboxAt? j ≠ some k

theorem Watches.abandon (answer : Backend β) {d : Desk β} (h : Watches w view k refresh d) :
    Gone w k (d.turn answer (.abandon w)) ∧
      (d.turn answer (.abandon w)).console.bus.subscriberCount + 1 = d.console.bus.subscriberCount := by
  obtain ⟨m, live, topic⟩ := h.listens.live
  have sound : (d.turn answer (.abandon w)).Sound := h.sound.turn _
  have mine : d.mailboxAt? w = some k := by rw [mailboxAt?, h.task]; rfl
  have nobody : ∀ j, (d.turn answer (.abandon w)).mailboxAt? j ≠ some k := fun j at_ => by
    rw [mailboxAt?_turn] at at_
    dsimp only at at_
    split at at_
    · cases at_
    · next other => exact other (h.sound.own j w k at_ mine)
  have given : d.turn answer (.abandon w) =
      { d with console := { d.console with bus := d.console.bus.unsubscribe k }, tasks := d.tasks.set w .over } := by
    rw [turn, Desk.abandon, h.task]
  rw [given] at sound nobody ⊢
  refine ⟨⟨sound, List.getElem?_set_self (List.getElem?_eq_some_iff.mp h.task).1, ?_, ?_, nobody⟩, ?_⟩
  · exact Nat.lt_of_lt_of_eq (Bus.lt_of_live? live) (List.length_modify _ _ _).symm
  · exact (Bus.live?_unsubscribe _ _ _).trans (if_pos rfl)
  · exact Bus.subscriberCount_unsubscribe h.listens.reaches live

theorem Gone.live?_turn {d : Desk β} (h : Gone w k d) (t : Turn) : (d.turn answer t).console.bus.live? k = none := by
  by_cases reload : t = .publish .reload
  · subst reload
    show (d.console.bus.publish .reload).1.live? k = none
    rw [Bus.live?_publish h.sound.reaches.knows h.sound.reaches.isOpen, h.left, Option.map_none]
  · have untouched : t.mailbox? d ≠ some k := fun touched => by
      obtain ⟨j, -, at_⟩ := Option.bind_eq_some_iff.mp touched
      exact h.nobody j at_
    have spared : d.console.bus.Spares k (d.turn answer t).console.bus := spares_turn reload untouched
    exact (spared.same h.sound.reaches h.lt fun m live => by cases h.left.symm.trans live).trans h.left

theorem Gone.task_turn {d : Desk β} (h : Gone w k d) (t : Turn) : (d.turn answer t).tasks[w]? = some .over := by
  have lt : w < d.tasks.length := (List.getElem?_eq_some_iff.mp h.task).1
  by_cases own : t.task? = some w
  · rcases Turn.of_task? own with ⟨arrived, rfl⟩ | rfl
    · rw [turn, resumeAt_eq d arrived h.task]
      exact List.getElem?_set_self lt
    · rw [turn, Desk.abandon, h.task]
      exact List.getElem?_set_self lt
  · exact ((getElem?_turn d t lt).2 own).trans h.task

theorem Gone.turn {d : Desk β} (h : Gone w k d) (t : Turn) : Gone w k (d.turn answer t) where
  sound := h.sound.turn t
  task := h.task_turn t
  lt := Nat.lt_of_lt_of_le h.lt (reaches_turn h.sound.reaches t).2
  left := h.live?_turn t
  nobody j at_ := by
    rcases mailboxAt?_of_turn at_ with old | ⟨-, -, rfl⟩
    · exact h.nobody j old
    · exact Nat.lt_irrefl _ h.lt

/-- A task that was given up asks for nothing. -/
theorem Gone.signs {d : Desk (β × List Noted)} (h : Gone w k d) (t : Turn) : d.signs answer w t = [] := by
  by_cases own : t.task? = some w
  · rcases Turn.of_task? own with ⟨arrived, rfl⟩ | rfl
    · have idle : (d.turn (noting answer) (.wake w arrived)).backend = d.backend := by
        rw [Desk.turn, resumeAt_eq d arrived h.task]
        rfl
      rw [Desk.signs, if_pos rfl, idle, List.drop_length, underWay?, h.task]
      rfl
    · rfl
  · exact signs_other own

theorem Gone.turns {d : Desk (β × List Noted)} (h : Gone w k d) (ts : List Turn) :
    Gone w k (d.turns (noting answer) ts) ∧ d.signsIn answer w ts = [] := by
  induction ts generalizing d with
  | nil => exact ⟨h, rfl⟩
  | cons t ts ih =>
    have next : Gone w k (d.turn (noting answer) t) := h.turn t
    obtain ⟨gone, silent⟩ := ih next
    exact ⟨gone, by rw [signsIn, h.signs, silent]; rfl⟩

theorem Sound.watches (answer : Backend β) {d : Desk β} (h : d.Sound) (view : Watched) :
    Watches d.tasks.length view d.console.bus.mailboxes.length none (d.turn answer (.watch view)) ∧
      (d.turn answer (.watch view)).mailed d.console.bus.mailboxes.length = 0 := by
  have live : (d.turn answer (.watch view)).console.bus.live? d.console.bus.mailboxes.length =
      some { topic := .reload, queue := [], live := true } :=
    (Bus.live?_subscribe _ _ _).trans (if_pos rfl)
  have sound : (d.turn answer (.watch view)).Sound := h.turn _
  exact ⟨⟨sound, List.getElem?_concat_length, ⟨sound.reaches, _, live, rfl⟩⟩, by rw [mailed, live]; rfl⟩

/-- What has come of watching a view from `bound` on, after turns in which the task was not given up. -/
structure RefreshesOnce (answer : Backend β) (w : Nat) (view : Watched) (bound : Desk (β × List Noted))
    (since : List Turn) : Prop where
  /-- For each reload that was published there has been one request, unless the reload is still in the mailbox. -/
  counted : ∃ k, (bound.turns (noting answer) since).mailboxAt? w = some k ∧
    ((bound.signsIn answer w since).filterMap Sign.asked?).length + (bound.turns (noting answer) since).mailed k =
      since.countP Turn.isReload
  stalled : (bound.turns (noting answer) since).Stalled w →
    ((bound.signsIn answer w since).filterMap Sign.asked?).length = since.countP Turn.isReload
  inTurn : InTurn none (bound.signsIn answer w since) ((bound.turns (noting answer) since).underWay? w)
  /-- When the task goes on, it goes on until it has to wait for a reply or for a reload. -/
  woken : ∀ arrived, let d := (bound.turns (noting answer) since).turn (noting answer) (.wake w arrived)
    (d.underWay? w).isSome = true ∨ d.Stalled w
  requests : ∀ arrived, let d := bound.turns (noting answer) since
    ∀ n ∈ (d.signs answer w (.wake w arrived)).filterMap Sign.asked?,
      n.request = d.console.refreshRequest view
  /-- Once it is given up, the task asks for nothing, and the bus does not count it. -/
  givenUp : ∀ later, let d := bound.turns (noting answer) since
    let left := d.turn (noting answer) (.abandon w)
    left.console.bus.subscriberCount + 1 = d.console.bus.subscriberCount ∧ left.signsIn answer w later = [] ∧
      ∀ k, d.mailboxAt? w = some k → (left.turns (noting answer) later).console.bus.live? k = none

theorem Watches.underWay? {d : Desk β} (h : Watches w view k refresh d) : d.underWay? w = refresh.map (·.ticket) := by
  rw [Desk.underWay?, h.task]

theorem Watches.mailboxAt? {d : Desk β} (h : Watches w view k refresh d) : d.mailboxAt? w = some k := by
  rw [Desk.mailboxAt?, h.task]
  rfl

theorem Watches.mailed_of_stalled {d : Desk β} (h : Watches w view k refresh d) (stalled : d.Stalled w) :
    d.mailed k = 0 := by
  obtain ⟨view', k', task, empty⟩ := stalled
  cases h.task.symm.trans task
  exact empty

/-- Whatever turns a desk takes before and since, a view that is watched is refreshed once for each reload that was
    published since, one refresh after the other, until it is given up. -/
theorem watch_refreshesOnce (answer : Backend β) (setup : Setup) (authorization : Option String) (backend : β)
    (before : List Turn) (view : Watched) (since : List Turn) :
    let d := (ofConsole (.start setup authorization) (backend, [])).turns (noting answer) before
    .abandon d.tasks.length ∉ since →
      RefreshesOnce answer d.tasks.length view (d.turn (noting answer) (.watch view)) since := by
  intro d stays
  have sound : d.Sound := (sound_start setup authorization (backend, [])).turns before
  obtain ⟨watches, fresh⟩ := sound.watches (noting answer) view
  obtain ⟨refresh, run⟩ := exists_movesOn answer watches stays
  have counted := run.counted
  rw [fresh, Nat.zero_add] at counted
  constructor
  case counted => exact ⟨_, run.watches.mailboxAt?, counted⟩
  case stalled =>
    intro stalled
    rw [run.watches.mailed_of_stalled stalled] at counted
    exact counted
  case inTurn => exact run.watches.underWay? ▸ run.inTurn
  case woken =>
    intro arrived
    obtain ⟨refresh', moves⟩ := moves_wake run.watches arrived
    cases refresh' with
    | some waiting => exact Or.inl (by rw [moves.watches.underWay?]; rfl)
    | none => exact Or.inr ⟨view, _, moves.watches.task, moves.drained ⟨arrived, rfl⟩ rfl⟩
  case requests =>
    intro arrived
    obtain ⟨refresh', moves⟩ := moves_wake run.watches arrived
    exact moves.requests
  case givenUp =>
    intro later
    obtain ⟨gone, less⟩ := run.watches.abandon (noting answer)
    refine ⟨less, (gone.turns later).2, fun k at_ => ?_⟩
    obtain rfl := Option.some.inj (at_.symm.trans run.watches.mailboxAt?)
    exact (gone.turns later).1.left

def lost : Rest.Reply := .error (.transport "down")

/-- The machines of a resolver have been listed when their view is watched. Two reloads are published before the task
    goes on for the first time, and a third while the reply to its first request is still to come, after a session has
    ended: the last of the three requests still asks for the machines of that resolver. -/
theorem watch_refreshesOnce_queued :
    let before := (ofConsole (.start .bare (some "token")) ((), [])).turns (noting silent)
      [.publish .reload, .call (.listMachines (some "pi"))]
    let bound := before.turn (noting silent) (.watch .machines)
    let since := [.publish .reload, .publish .reload, .wake 1 [], .publish (.sessionExpired 401), .publish .reload,
      .wake 1 [], .wake 1 [(1, lost)]]
    let d := bound.turns (noting silent) since
    let last := (d.signs silent 1 (.wake 1 [(2, lost)])).filterMap Sign.asked?
    let later := since ++ [.wake 1 [(2, lost)], .wake 1 [(3, lost)]]
    (RefreshesOnce silent 1 .machines bound since ∧ last.length = 1 ∧ ∀ n ∈ last, n.request =
      { method := .get, url := "/machine/", query := [("resolver", "pi")], body := none,
        authorization := some "token" }) ∧
      RefreshesOnce silent 1 .machines bound later ∧
        ((bound.signsIn silent 1 later).filterMap Sign.asked?).length = 3 := by
  intro before bound since d last later
  let earlier : List Turn := [.publish .reload, .call (.listMachines (some "pi"))]
  have once : RefreshesOnce silent 1 .machines bound since :=
    watch_refreshesOnce silent .bare (some "token") () earlier .machines since (by simp [since])
  have onceLater : RefreshesOnce silent 1 .machines bound later :=
    watch_refreshesOnce silent .bare (some "token") () earlier .machines later (by simp [later, since])
  have stalled : (bound.turns (noting silent) later).Stalled 1 :=
    stalled_of_idle (k := 0) (by decide +kernel) (by decide +kernel) (by decide +kernel)
  have base : d.console.setup.endpoints.base = "" := by decide +kernel
  have token : d.console.authorization = some "token" := by decide +kernel
  have chosen : d.console.machines.selected = none := by decide +kernel
  have stored : d.console.machines.resolver = some "pi" := by decide +kernel
  have request : d.console.refreshRequest .machines =
      { method := .get, url := "/machine/", query := [("resolver", "pi")], body := none,
        authorization := some "token" } := by
    simp only [refreshRequest, chosen, stored, base, token]
    rfl
  exact ⟨⟨once, by decide +kernel, fun n hn => (once.requests [(2, lost)] n hn).trans request⟩, onceLater,
    onceLater.stalled stalled⟩

end Desk

end Console
end MfaConsole
