import MfaConsole.Proofs.Console.MachinesEffect
import MfaConsole.Proofs.Console.Reports
import MfaConsole.Proofs.Console.ServersEffect

/-! What is shown after reads that were no success. A read that failed leaves what is shown; one that the backend
    answered with a refusal empties it, as the payload that such an answer lacks is taken for an empty one. -/

namespace MfaConsole
namespace Console

/-! ### Collections -/

/-- What a read fetches anew. -/
inductive Collection where
  | servers
  | machines
  | tokens
  | applications
  | clients
  deriving DecidableEq

abbrev Collection.Content : Collection → Type
  | .servers => KeyMap Wire.ServerDefinition
  | .machines => List Wire.Machine
  | .tokens => List Wire.AttachedToken
  | .applications => KeyMap Json
  | .clients => Wire.ClientTypes

def Collection.empty : (k : Collection) → k.Content
  | .servers | .applications | .clients => KeyMap.empty
  | .machines | .tokens => []

def shown (c : Console) : (k : Collection) → k.Content
  | .servers => c.servers.servers
  | .machines => c.machines.machines
  | .tokens => c.machines.tokens
  | .applications => c.machines.applications
  | .clients => c.clients.clientTypes

/-- The collection that a reply brings, if it is one to a read. -/
def Purpose.brings? : Purpose → Option Collection
  | .ending (.serverList _ _) => some .servers
  | .ending (.machineList _) => some .machines
  | .ending (.tokenList _) => some .tokens
  | .ending .clientList => some .clients
  | .applications => some .applications
  | _ => none

/-- Opening the details of a machine puts away the tokens shown, before any are asked for. -/
def Collection.isPutAwayBy : Collection → Call → Bool
  | .tokens, .showDetails _ _ => true
  | _, _ => false

/-- The backend has answered, and refuses. -/
structure Refuses (o : Rest.Operation) (reply : Rest.Reply) (e : Wire.Envelope o.Payload) : Prop where
  answered : o.outcome reply = .ok e
  status : e.succeeded = false
  error : e.result.error.isSome = true
  value : e.value = none

/-- A reply that is no success. -/
inductive Unsuccessful (o : Rest.Operation) (reply : Rest.Reply) : Prop where
  | failed {f : Rest.Failure} (h : o.Fails reply f)
  | refused {e : Wire.Envelope o.Payload} (h : Refuses o reply e)

/-- What an answer holds, with something in place of a payload that it lacks; a failure holds nothing. -/
def content {α β : Type} (ofValue : Option α → β) : Outcome α → Option β
  | .ok e => some (ofValue e.value)
  | .error _ => none

/-- What a reply brings of a collection. -/
def Purpose.brought (reply : Rest.Reply) : Purpose → (k : Collection) → Option k.Content
  | .ending (.serverList _ _), .servers => content (·.getD KeyMap.empty) (Rest.Operation.servers.outcome reply)
  | .ending (.machineList filter), .machines => content (·.getD []) ((Rest.Operation.machines filter).outcome reply)
  | .ending (.tokenList filter), .tokens =>
    content (·.elim [] Wire.TokenPage.tokens) ((Rest.Operation.tokens filter).outcome reply)
  | .ending .clientList, .clients => content (·.getD KeyMap.empty) (Rest.Operation.clientTypes.outcome reply)
  | .applications, .applications => content (·.getD KeyMap.empty) (Rest.Operation.applications.outcome reply)
  | _, _ => none

theorem brought_of_failed {p : Purpose} {reply : Rest.Reply} {f : Rest.Failure} (h : p.operation.Fails reply f)
    (k : Collection) : p.brought reply k = none := by
  have failed := Rest.Operation.outcome_eq_error_iff.mpr h
  rw [Purpose.brought.eq_def]
  split <;> first | rfl | exact congrArg (content _) failed

theorem content_of_refuses {o : Rest.Operation} {reply : Rest.Reply} {e : Wire.Envelope o.Payload}
    (h : Refuses o reply e) {β : Type} (ofValue : Option o.Payload → β) :
    content ofValue (o.outcome reply) = some (ofValue none) := by
  rw [h.answered, content, h.value]

theorem brought_of_refuses {p : Purpose} {reply : Rest.Reply} {k : Collection} (hk : p.brings? = some k)
    {e : Wire.Envelope p.operation.Payload} (h : Refuses p.operation reply e) :
    p.brought reply k = some k.empty := by
  rw [Purpose.brings?.eq_def] at hk
  split at hk <;> cases hk
  · exact content_of_refuses h (·.getD KeyMap.empty)
  · exact content_of_refuses h (·.getD [])
  · exact content_of_refuses h (·.elim [] Wire.TokenPage.tokens)
  · exact content_of_refuses h (·.getD KeyMap.empty)
  · exact content_of_refuses h (·.getD KeyMap.empty)

theorem brought_of_other {p : Purpose} {k : Collection} (hk : p.brings? ≠ some k) (reply : Rest.Reply) :
    p.brought reply k = none := by
  rw [Purpose.brought.eq_def]
  split <;> first | rfl | exact absurd rfl hk

/-! ### Calls and replies -/

namespace ServersView

theorem servers_called (v : ServersView) (call : Call) : (v.called call).servers = v.servers := by
  cases call with
  | mountServerList =>
    rw [called]
    split <;> rfl
  | mountServerForm identifier => cases identifier <;> rfl
  | _ => rfl

theorem servers_listed_error (v : ServersView) (load : Option String) (saved : Option (Wire.Envelope Json))
    (f : Rest.Failure) : (v.listed load saved (.error f)).servers = v.servers := by
  rw [listed]
  split <;> rfl

theorem servers_answered (v : ServersView) (p : Purpose) (reply : Rest.Reply) :
    (v.answered p reply).servers = (p.brought reply .servers).getD v.servers := by
  cases p with
  | applications => rfl
  | writing w =>
    rw [answered]
    split <;> rfl
  | ending e =>
    cases e with
    | serverList load saved =>
      rw [answered, Purpose.brought]
      cases Rest.Operation.servers.outcome reply with
      | ok e => exact servers_listed_ok v load saved e
      | error f => exact servers_listed_error v load saved f
    | _ => rfl

end ServersView

namespace MachinesView

theorem collections_called (v : MachinesView) (call : Call) :
    (v.called call).machines = v.machines ∧ (v.called call).applications = v.applications ∧
      (v.called call).tokens = if Collection.tokens.isPutAwayBy call then [] else v.tokens := by
  cases call with
  | refreshTokens | refreshMachines =>
    rw [called]
    split <;> exact ⟨rfl, rfl, rfl⟩
  | _ => exact ⟨rfl, rfl, rfl⟩

/-- The applications are not among what a reply brings at once: they are offered when the tokens have arrived too. -/
theorem collections_answered (v : MachinesView) (p : Purpose) (reply : Rest.Reply) :
    (v.answered p reply).machines = (p.brought reply .machines).getD v.machines ∧
      (v.answered p reply).tokens = (p.brought reply .tokens).getD v.tokens ∧
      (v.answered p reply).applications = v.applications := by
  cases p with
  | applications => exact ⟨rfl, rfl, rfl⟩
  | writing w =>
    rw [answered]
    split <;> exact ⟨rfl, rfl, rfl⟩
  | ending e =>
    cases e with
    | machineList filter =>
      rw [answered]
      cases h : (Rest.Operation.machines filter).outcome reply <;> simp [endList, Purpose.brought, content, h]
    | tokenList filter =>
      rw [answered]
      cases h : (Rest.Operation.tokens filter).outcome reply <;> simp [endTokens, Purpose.brought, content, h]
    | _ => exact ⟨rfl, rfl, rfl⟩

end MachinesView

theorem clientTypes_begin (c : Console) (call : Call) :
    (c.begin call).1.clients.clientTypes = c.clients.clientTypes := by
  have kept := (keeps_begin c call).clients
  cases call with
  | mountClients path =>
    rw [begin, mountClients]
    split <;> rfl
  | listClients => rfl
  | _ => exact congrArg _ (kept (by simp [Call.view]))

theorem clientTypes_answer (c : Console) (p : Purpose) (reply : Rest.Reply) :
    (c.answer p reply).1.clients.clientTypes = (p.brought reply .clients).getD c.clients.clientTypes := by
  have kept := (keeps_answer c p reply).clients
  cases p with
  | applications => exact congrArg _ (kept (by simp [Purpose.view]))
  | writing w => exact congrArg _ (kept (by rw [Purpose.view]; split <;> simp))
  | ending e =>
    cases e with
    | clientList =>
      rw [Purpose.brought, ← receive_snd c, answer, conclude, clientsListed]
      rcases h : c.receive .clientTypes reply with ⟨c', outcome⟩
      have same : c'.clients = c.clients := (Keeps.of_receive (v := none) h).clients (by simp)
      rw [← same]
      cases outcome <;> rfl
    | _ => exact congrArg _ (kept (by simp [Purpose.view]))

variable {a b : Console}

theorem Keeps.shown (h : Keeps none a b) (k : Collection) : b.shown k = a.shown k := by
  cases k with
  | servers => exact congrArg ServersView.servers h.sameServers
  | machines => exact congrArg MachinesView.machines h.sameMachines
  | tokens => exact congrArg MachinesView.tokens h.sameMachines
  | applications => exact congrArg MachinesView.applications h.sameMachines
  | clients => exact congrArg ClientsView.clientTypes (h.clients (by simp))

/-- A call changes no collection at once, but for what it puts away. -/
theorem shown_begin (c : Console) (call : Call) (k : Collection) :
    (c.begin call).1.shown k = if k.isPutAwayBy call then k.empty else c.shown k := by
  have machines := c.machines.collections_called call
  rw [← machines_begin] at machines
  cases k with
  | servers => exact (congrArg _ (servers_begin c call)).trans (c.servers.servers_called call)
  | machines => exact machines.1
  | applications => exact machines.2.1
  | tokens => exact machines.2.2
  | clients => exact clientTypes_begin c call

/-- A reply changes the collection it brings, and no other. -/
theorem shown_answer (c : Console) (p : Purpose) (reply : Rest.Reply) {k : Collection} (hk : k ≠ .applications) :
    (c.answer p reply).1.shown k = (p.brought reply k).getD (c.shown k) := by
  have machines := c.machines.collections_answered p reply
  rw [← machines_answer] at machines
  cases k with
  | servers => exact (congrArg _ (servers_answer c p reply)).trans (c.servers.servers_answered p reply)
  | machines => exact machines.1
  | tokens => exact machines.2.1
  | applications => exact absurd rfl hk
  | clients => exact clientTypes_answer c p reply

theorem applications_answer (c : Console) (p : Purpose) (reply : Rest.Reply) :
    (c.answer p reply).1.shown .applications = c.shown .applications := by
  have machines := c.machines.collections_answered p reply
  rw [← machines_answer] at machines
  exact machines.2.2

theorem shown_offerApplications (c : Console) (offered : Option (KeyMap Json)) {k : Collection}
    (hk : k ≠ .applications) : (c.offerApplications offered).shown k = c.shown k := by
  cases offered with
  | none => rfl
  | some a =>
    cases k with
    | applications => exact absurd rfl hk
    | _ => rfl

theorem applications_offerApplications (c : Console) (offered : Option (KeyMap Json)) :
    (c.offerApplications offered).shown .applications = offered.getD (c.shown .applications) := by
  cases offered <;> rfl

theorem applicationsListed_snd (c : Console) (reply : Rest.Reply) :
    (c.applicationsListed reply).2 = Purpose.applications.brought reply .applications := by
  rw [applicationsListed, Purpose.brought, ← receive_snd c]
  rcases c.receive .applications reply with ⟨c', _ | e⟩ <;> rfl

/-! ### Applications on offer -/

theorem brought_ending (e : Ending) (reply : Rest.Reply) : (Purpose.ending e).brought reply .applications = none := by
  cases e <;> rfl

/-- The applications that have arrived and are to be offered when the tokens have arrived too. -/
def Task.offering? : Task → Option (KeyMap Json)
  | .details _ (.arrived applications) => applications
  | _ => none

namespace Desk

/-- What a task has done with the applications that arrived: it offers them later or now. -/
inductive Offers (d : Desk Unit) (arrived : Option (KeyMap Json)) (next : Desk Unit × Task) : Prop where
  | later (shown : next.1.console.shown .applications = d.console.shown .applications)
      (offering : next.2.offering? = arrived) (awaits : arrived.isSome = true → next.2.awaited ≠ [])
  | now (shown : next.1.console.shown .applications = arrived.getD (d.console.shown .applications))
      (offering : next.2.offering? = none)

variable {d : Desk Unit} {ticket : Nat} {p : Purpose} {as bs : InFlight}

theorem Offers.of_none {next : Desk Unit × Task}
    (shown : next.1.console.shown .applications = d.console.shown .applications) (offering : next.2.offering? = none) :
    d.Offers none next :=
  .now shown offering

theorem offers_writing (d : Desk Unit) (w : Waiting Writing) (reply : Rest.Reply) :
    d.Offers none (d.resume silent [(w.ticket, reply)] (.writing w)) := by
  rw [resume, List.lookup_cons_self]
  dsimp only
  have same := applications_answer d.console (.writing w.purpose) reply
  rw [answer] at same
  rw [afterWriting]
  rcases hp : d.console.proceed w.purpose reply with ⟨console, _ | e⟩
  · rw [hp] at same
    exact .of_none same rfl
  · rw [hp] at same
    exact .of_none (((Keeps.dispatch (v := none) console e.operation).shown _).trans same) rfl

theorem offers_details {tokens : Option (Waiting Ending)} {applications : Applications}
    (hn : ((Task.details tokens applications).awaited.map Prod.fst).Nodup)
    (h : (Task.details tokens applications).awaited = as ++ (ticket, p) :: bs) (reply : Rest.Reply) :
    d.Offers ((p.brought reply .applications).or (Task.details tokens applications).offering?)
      (d.resume silent [(ticket, reply)] (.details tokens applications)) := by
  have listed := applications_answer d.console .applications reply
  cases tokens with
  | none =>
    cases applications with
    | arrived a => simp [Task.awaited] at h
    | waiting n =>
      obtain ⟨rfl, rfl, rfl, rfl⟩ := singleton_eq_append_cons h
      simp only [resume, resumeEnding, resumeApplications_own]
      rw [Task.offering?, Option.or_none, ← applicationsListed_snd d.console]
      · refine .now ?_ rfl
        rw [← listed]
        exact applications_offerApplications _ _
      · rintro _ _ ⟨⟩
  | some w =>
    have concluded := applications_answer d.console (.ending w.purpose) reply
    cases applications with
    | arrived a =>
      obtain ⟨rfl, rfl, rfl, rfl⟩ := singleton_eq_append_cons h
      rw [resume, resumeEnding_own, brought_ending, Option.none_or]
      refine .now ?_ rfl
      rw [← concluded]
      exact applications_offerApplications _ _
    | waiting n =>
      have apart : w.ticket ≠ n := by
        simpa [Task.awaited] using hn
      cases as with
      | nil =>
        obtain ⟨hx, rfl⟩ := List.cons.inj h
        obtain ⟨rfl, rfl⟩ := Prod.mk.inj hx
        rw [resume, resumeEnding_own, brought_ending, Option.none_or]
        simp only [resumeApplications_other _ apart.symm]
        exact .of_none concluded rfl
      | cons a as =>
        obtain ⟨rfl, rest⟩ := List.cons.inj h
        obtain ⟨rfl, rfl, rfl, rfl⟩ := singleton_eq_append_cons rest
        rw [resume, resumeEnding_other d apart]
        simp only [resumeApplications_own]
        rw [Task.offering?, Option.or_none, ← applicationsListed_snd d.console]
        · exact .later listed rfl fun _ => List.cons_ne_nil _ _
        · rintro _ _ ⟨⟩

theorem offers {task : Task} (hc : task.isCall = true) (hn : (task.awaited.map Prod.fst).Nodup)
    (h : task.awaited = as ++ (ticket, p) :: bs) (reply : Rest.Reply) :
    d.Offers ((p.brought reply .applications).or task.offering?) (d.resume silent [(ticket, reply)] task) := by
  cases task with
  | watching => cases hc
  | ending w =>
    obtain ⟨rfl, rfl, rfl, rfl⟩ := singleton_eq_append_cons h
    rw [resume, resumeEnding_own, brought_ending]
    exact .of_none (applications_answer d.console (.ending w.purpose) reply) rfl
  | writing w =>
    obtain ⟨rfl, rfl, rfl, rfl⟩ := singleton_eq_append_cons h
    exact offers_writing d w reply
  | details tokens applications => exact offers_details hn h reply
  | _ => simp [Task.awaited] at h

end Desk

/-! ### Runs -/

/-- What is shown of a collection after an event, if a reply brings it at once. -/
def Collection.next (k : Collection) (s : k.Content) : Event → k.Content
  | .called call => if k.isPutAwayBy call then k.empty else s
  | .answered p reply => (p.brought reply k).getD s

/-- Whether an event puts a collection away or brings it. -/
def Collection.isReplacedBy (k : Collection) : Event → Bool
  | .called call => k.isPutAwayBy call
  | .answered p reply => (p.brought reply k).isSome

/-- The replies to reads of a collection are no success, none of them. -/
def NoneSuccessful (k : Collection) (es : List Event) : Prop :=
  ∀ p reply, .answered p reply ∈ es → p.brings? = some k → Unsuccessful p.operation reply

def Collection.isPutAwayAt (k : Collection) : Event → Bool
  | .called call => k.isPutAwayBy call
  | .answered _ _ => false

/-- What is shown of a collection when its reads are sent: what was shown before, unless a call has put it away. -/
def Collection.leftBy (k : Collection) (es : List Event) (s : k.Content) : k.Content :=
  if es.any k.isPutAwayAt then k.empty else s

variable {admits : Desk Unit → Call → Prop} {first : Console} {d : Desk Unit} {es : List Event} {k : Collection}

theorem brought_of_noneSuccessful (h : NoneSuccessful k es) {p : Purpose} {reply : Rest.Reply}
    (hp : .answered p reply ∈ es) {s : k.Content} (hs : p.brought reply k = some s) : s = k.empty := by
  by_cases hk : p.brings? = some k
  · rcases h p reply hp hk with ⟨failed⟩ | ⟨refused⟩
    · cases (brought_of_failed failed k).symm.trans hs
    · exact Option.some.inj (hs.symm.trans (brought_of_refuses hk refused))
  · cases (brought_of_other hk reply).symm.trans hs

theorem next_of_noneSuccessful (h : NoneSuccessful k es) {e : Event} (he : e ∈ es) (s : k.Content) :
    k.next s e = if k.isReplacedBy e then k.empty else s := by
  cases e with
  | called call => rfl
  | answered p reply =>
    rw [Collection.next, Collection.isReplacedBy]
    cases hs : p.brought reply k with
    | none => rfl
    | some t => exact brought_of_noneSuccessful h he hs

theorem foldl_next_of_noneSuccessful (h : NoneSuccessful k es) (s : k.Content) :
    es.foldl k.next s = if es.any k.isReplacedBy then k.empty else s := by
  induction es generalizing s with
  | nil => rfl
  | cons e es ih =>
    rw [List.foldl_cons, next_of_noneSuccessful h List.mem_cons_self,
      ih (fun p reply hp => h p reply (List.mem_cons_of_mem e hp)), List.any_cons]
    cases k.isReplacedBy e <;> simp

namespace Reached

theorem shown (h : Reached admits first d es) (hk : k ≠ .applications) :
    d.console.shown k = es.foldl k.next (first.shown k) := by
  induction h with
  | start => rfl
  | @call d es c h _ ih =>
    rw [Desk.console_call, (Keeps.dispatchAll _ _).shown, shown_begin, ih, List.foldl_append]
    rfl
  | @reply d es ticket p h hp reply ih =>
    obtain ⟨as, bs, hf⟩ := List.append_of_mem hp
    obtain ⟨applications, answered⟩ := (Desk.deliver_awaited h.tidy hf reply).1.console
    rw [answered, shown_offerApplications _ _ hk, (Keeps.dispatchAll _ _).shown, shown_answer _ _ _ hk, ih,
      List.foldl_append]
    rfl

end Reached

/-- The applications shown once those on offer are, where each offer is an empty one. -/
def Desk.due (d : Desk Unit) : KeyMap Json :=
  if d.tasks.any (·.offering?.isSome) then KeyMap.empty else d.console.shown .applications

/-- Where no read of the applications is a success, what is on offer is empty, and waits for tokens. -/
structure Offering (first : Console) (d : Desk Unit) (es : List Event) : Prop where
  waits : ∀ t ∈ d.tasks, ∀ a, t.offering? = some a → a = KeyMap.empty ∧ t.awaited ≠ []
  due : d.due = if es.any Collection.applications.isReplacedBy then KeyMap.empty else first.shown .applications

namespace Offering

theorem call (h : Offering first d es) (call : Call) : Offering first (d.call silent call) (es ++ [.called call]) := by
  have same : (d.call silent call).console.shown .applications = d.console.shown .applications := by
    rw [Desk.console_call, (Keeps.dispatchAll _ _).shown, shown_begin]
    rfl
  obtain ⟨t, tasks, nothing⟩ : ∃ t, (d.call silent call).tasks = d.tasks ++ [t] ∧ t.offering? = none := by
    rw [Desk.call]
    rcases d.console.begin call with ⟨console, _ | _ | _ | _⟩ <;> exact ⟨_, rfl, rfl⟩
  constructor
  case waits =>
    intro u hu a ha
    rw [tasks] at hu
    rcases List.mem_append.mp hu with hu | hu
    · exact h.waits u hu a ha
    · rw [List.mem_singleton.mp hu, nothing] at ha
      cases ha
  case due =>
    have due : (d.call silent call).due = d.due := by simp [Desk.due, same, tasks, nothing]
    rw [due, h.due]
    simp [Collection.isReplacedBy, Collection.isPutAwayBy]

theorem reply (h : Offering first d es) (tidy : d.Tidy) {ticket : Nat} {p : Purpose}
    (hp : (ticket, p) ∈ d.inFlight) (reply : Rest.Reply)
    (bare : ∀ a, p.brought reply .applications = some a → a = KeyMap.empty) :
    Offering first (d.deliver silent [(ticket, reply)]) (es ++ [.answered p reply]) := by
  obtain ⟨as, bs, hf⟩ := List.append_of_mem hp
  obtain ⟨before, task, after, as, bs, ht, ha, -, -⟩ := Desk.exists_task hf
  have mem : task ∈ d.tasks := by rw [ht]; simp
  have nodup : (task.awaited.map Prod.fst).Nodup :=
    ((List.sublist_flatten_of_mem (List.mem_map_of_mem mem)).map Prod.fst).nodup tidy.nodup
  have resumed := Desk.resumed (d := d) (tidy.isCall task mem) nodup ha reply
  have offers := Desk.offers (d := d) (tidy.isCall task mem) nodup ha reply
  rw [tidy.deliver_eq ht ha reply resumed.tasks]
  generalize d.resume silent [(ticket, reply)] task = next at offers
  generalize hr : (p.brought reply .applications).or task.offering? = arrived at offers
  have empty : ∀ a, arrived = some a → a = KeyMap.empty := fun a ha => by
    rcases Option.or_eq_some_iff.mp (hr.trans ha) with brought | ⟨-, offered⟩
    · exact bare a brought
    · exact (h.waits task mem a offered).1
  have isSome : arrived.isSome = ((p.brought reply .applications).isSome || task.offering?.isSome) := by
    rw [← hr, Option.isSome_or]
  constructor
  case waits =>
    intro u hu a ha
    have old (hm : u ∈ before ++ after) : u ∈ d.tasks := by
      rw [ht]
      exact List.mem_append.mpr ((List.mem_append.mp hm).imp_right (List.mem_cons_of_mem _))
    rcases List.mem_append.mp hu with hu | hu
    · exact h.waits u (old (List.mem_append_left _ hu)) a ha
    · rcases List.mem_cons.mp hu with rfl | hu
      · rcases offers with ⟨-, offering, awaits⟩ | ⟨-, offering⟩
        · rw [offering] at ha
          exact ⟨empty a ha, awaits (by rw [ha]; rfl)⟩
        · cases offering.symm.trans ha
      · exact h.waits u (old (List.mem_append_right _ hu)) a ha
  case due =>
    have moved : Desk.due { next.1 with tasks := before ++ next.2 :: after } =
        if (p.brought reply .applications).isSome then KeyMap.empty else d.due := by
      simp only [Desk.due, ht, List.any_append, List.any_cons]
      rcases offers with ⟨shown, offering, -⟩ | ⟨shown, offering⟩
      · rw [offering, isSome, shown]
        cases (p.brought reply .applications).isSome <;> simp
      · rw [offering, shown]
        cases arrived with
        | none =>
          obtain ⟨brought, offered⟩ := Bool.or_eq_false_iff.mp isSome.symm
          simp [brought, offered]
        | some a =>
          rw [empty a rfl]
          rcases Bool.or_eq_true_iff.mp isSome.symm with brought | offered
          · simp [brought]
          · simp [offered]
    rw [moved, h.due, List.any_append]
    simp only [Collection.isReplacedBy, List.any_cons, List.any_nil, Bool.or_false]
    cases (p.brought reply .applications).isSome <;> simp

end Offering

theorem NoneSuccessful.of_append {e : Event} (h : NoneSuccessful k (es ++ [e])) : NoneSuccessful k es :=
  fun p reply hp => h p reply (List.mem_append_left _ hp)

theorem Reached.offering (h : Reached admits first d es) (hn : NoneSuccessful .applications es) :
    Offering first d es := by
  induction h with
  | start => exact ⟨fun _ ht => absurd ht List.not_mem_nil, rfl⟩
  | call _ _ ih => exact (ih hn.of_append).call _
  | @reply d es ticket p h hp reply ih =>
    refine (ih hn.of_append).reply h.tidy hp reply fun a ha => ?_
    exact brought_of_noneSuccessful hn (List.mem_append_right _ List.mem_cons_self) ha

/-- What is on offer waits for tokens, so that at rest there is nothing on offer. -/
theorem Offering.due_of_rest (h : Offering first d es) (rest : d.inFlight = []) :
    d.due = d.console.shown .applications := by
  have nothing : d.tasks.any (·.offering?.isSome) = false := List.any_eq_false.mpr fun t ht some => by
    obtain ⟨a, ha⟩ := Option.isSome_iff_exists.mp some
    exact (h.waits t ht a ha).2 (List.flatMap_eq_nil_iff.mp rest t ht)
  rw [Desk.due, nothing]
  rfl

theorem Reached.shown_of_noneSuccessful (h : Reached admits first d es) (rest : k = .applications → d.inFlight = [])
    (hn : NoneSuccessful k es) :
    d.console.shown k = if es.any k.isReplacedBy then k.empty else first.shown k := by
  by_cases hk : k = .applications
  · subst hk
    have offering := h.offering hn
    rw [← offering.due_of_rest (rest rfl), offering.due]
    rfl
  · rw [h.shown hk, foldl_next_of_noneSuccessful hn]

/-- The reads of a collection that were answered all failed. -/
def AllFailed (k : Collection) (es : List Event) : Prop :=
  ∀ p reply, .answered p reply ∈ es → p.brings? = some k → ∃ f, p.operation.Fails reply f

theorem any_isReplacedBy_of_allFailed (h : AllFailed k es) : es.any k.isReplacedBy = es.any k.isPutAwayAt := by
  rw [Bool.eq_iff_iff, List.any_eq_true, List.any_eq_true]
  refine exists_congr fun e => and_congr_right fun he => ?_
  cases e with
  | called call => exact Iff.rfl
  | answered p reply =>
    have nothing : p.brought reply k = none := by
      by_cases hk : p.brings? = some k
      · obtain ⟨f, failed⟩ := h p reply he hk
        exact brought_of_failed failed k
      · exact brought_of_other hk reply
    rw [Collection.isReplacedBy, nothing]
    exact Iff.rfl

theorem any_isReplacedBy_of_not_allFailed (hn : NoneSuccessful k es) (h : ¬AllFailed k es) :
    es.any k.isReplacedBy = true := by
  simp only [AllFailed, Classical.not_forall, not_exists] at h
  obtain ⟨p, reply, he, hk, not_failed⟩ := h
  rcases hn p reply he hk with ⟨failed⟩ | ⟨refused⟩
  · exact absurd failed (not_failed _)
  · refine List.any_eq_true.mpr ⟨_, he, ?_⟩
    rw [Collection.isReplacedBy, brought_of_refuses hk refused]
    rfl

/-- Where no read of a collection is a success, it is shown as the calls left it exactly if all those reads failed, or
    if nothing of it was shown in the first place. -/
theorem shown_eq_leftBy_iff (h : Reached admits first d es) (rest : k = .applications → d.inFlight = [])
    (hn : NoneSuccessful k es) : d.console.shown k = k.leftBy es (first.shown k) ↔
      AllFailed k es ∨ k.leftBy es (first.shown k) = k.empty := by
  rw [h.shown_of_noneSuccessful rest hn]
  by_cases failed : AllFailed k es
  · refine iff_of_true ?_ (Or.inl failed)
    rw [any_isReplacedBy_of_allFailed failed]
    rfl
  · rw [if_pos (any_isReplacedBy_of_not_allFailed hn failed), or_iff_right failed]
    exact eq_comm

/-- A console that shows a definition. -/
def listed : Console :=
  (Console.start .bare none).conclude (.serverList none none)
    (carriedOut (.object [("a", .object [("url", .string "https://a")])]))

def unanswered : Rest.Reply := .error (.transport "down")

/-- The backend answers that it refuses. -/
def refusal : Rest.Reply :=
  .ok { status := 200,
        body := .object [("result", .object [("error", .object [("message", .string "no")]),
          ("status", .bool false)])],
        shapeReason := "" }

theorem eq_of_mem_one {call : Call} {p q : Purpose} {reply r : Rest.Reply}
    (h : .answered q r ∈ [Event.called call, .answered p reply]) : q = p ∧ r = reply := by
  simpa using h

theorem noneSuccessful_of_one {call : Call} {p : Purpose} {reply : Rest.Reply} (h : Unsuccessful p.operation reply) :
    NoneSuccessful k [.called call, .answered p reply] := fun q r he _ => by
  obtain ⟨rfl, rfl⟩ := eq_of_mem_one he
  exact h

theorem allFailed_of_one {call : Call} {p : Purpose} {reply : Rest.Reply} {f : Rest.Failure}
    (h : p.operation.Fails reply f) : AllFailed k [.called call, .answered p reply] := fun q r he _ => by
  obtain ⟨rfl, rfl⟩ := eq_of_mem_one he
  exact ⟨f, h⟩

/-- A listing without an answer leaves the definition shown. -/
theorem shown_eq_leftBy_unanswered : ∃ (d : Desk Unit) (es : List Event),
    Reached anyTime listed d es ∧ NoneSuccessful .servers es ∧
      d.console.shown .servers = Collection.leftBy .servers es (listed.shown .servers) := by
  have listing : Reached anyTime listed _ [.called (.listServers none)] := .call .start trivial
  let p : Purpose := .ending (.serverList none none)
  have answered : Reached anyTime listed _ [.called (.listServers none), .answered p unanswered] :=
    listing.reply (.head _) unanswered
  have failed : p.operation.Fails unanswered (.transport "down") := .unanswered _
  have lost : NoneSuccessful .servers [.called (.listServers none), .answered p unanswered] :=
    noneSuccessful_of_one (.failed failed)
  exact ⟨_, _, answered, lost, (shown_eq_leftBy_iff answered (fun _ => rfl) lost).mpr (.inl (allFailed_of_one failed))⟩

/-- A listing that the backend refuses takes the definition away. -/
theorem exists_shown_ne_leftBy : ∃ (d : Desk Unit) (es : List Event),
    Reached anyTime listed d es ∧ d.inFlight = [] ∧ NoneSuccessful .servers es ∧
      d.console.shown .servers ≠ Collection.leftBy .servers es (listed.shown .servers) := by
  have listing : Reached anyTime listed _ _ := .call (c := .listServers none) .start trivial
  refine ⟨_, _, listing.reply (p := .ending (.serverList none none)) (.head _) refusal, rfl,
    noneSuccessful_of_one (.refused ⟨rfl, rfl, rfl, rfl⟩), fun same => ?_⟩
  have gone : ([] : List String) = ["a"] := congrArg KeyMap.keys same
  cases gone

end Console
end MfaConsole
