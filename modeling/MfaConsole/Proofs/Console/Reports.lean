import MfaConsole.Proofs.Console.Exchanges
import MfaConsole.Proofs.Console.Reached

/-! What leaves the console, and which failures it hands to the session. A call and a reply hand over what failed in
    them and nothing else, once and as it stands; only rejections go on to the bus. No request is sent again because it
    failed. -/

namespace MfaConsole

/-! ### Failures of an operation -/

namespace Rest

def IsSuccess (a : Answer) : Prop := 200 ≤ a.status ∧ a.status ≤ 299

theorem isSuccess_iff (a : Answer) : isSuccess a.status = true ↔ IsSuccess a := by
  simp only [isSuccess, IsSuccess, Bool.and_eq_true, decide_eq_true_eq]
  omega

/-- How an operation fails: there is no answer, the answer is not one of success, or what it holds cannot be read as
    the operation's payload in its envelope. -/
inductive Operation.Fails (o : Operation) : Reply → Failure → Prop where
  | unanswered (f : Failure) : o.Fails (.error f) f
  | refused {a : Answer} (h : ¬IsSuccess a) : o.Fails (.ok a) (.ofAnswer a.status a.body)
  | unread {a : Answer} (h : IsSuccess a) (shape : Wire.Envelope.read o.payload a.body = none) :
      o.Fails (.ok a) (.decode a.shapeReason)

theorem Operation.outcome_eq_error_iff {o : Operation} {reply : Reply} {f : Failure} :
    o.outcome reply = .error f ↔ o.Fails reply f := by
  cases reply with
  | error g =>
    constructor
    · rintro h
      cases h
      exact .unanswered f
    · rintro ⟨⟩
      rfl
  | ok a =>
    rw [outcome, judge, readEnvelope]
    by_cases success : IsSuccess a
    · rw [if_pos ((isSuccess_iff a).mpr success)]
      cases shape : Wire.Envelope.read o.payload a.body with
      | none =>
        constructor
        · rintro h
          cases h
          exact .unread success shape
        · rintro (_ | other | _)
          · exact absurd success other
          · rfl
      | some e =>
        refine iff_of_false (fun h => by cases h) ?_
        rintro (_ | other | ⟨_, unread⟩)
        · exact other success
        · cases shape.symm.trans unread
    · rw [if_neg (mt (isSuccess_iff a).mp success)]
      constructor
      · rintro h
        cases h
        exact .refused success
      · rintro (_ | _ | ⟨other, _⟩)
        · rfl
        · exact absurd other success

theorem Operation.outcome_eq_ok_iff {o : Operation} {reply : Reply} {e : Wire.Envelope o.Payload} :
    o.outcome reply = .ok e ↔ ∃ a, reply = .ok a ∧ IsSuccess a ∧ Wire.Envelope.read o.payload a.body = some e := by
  cases reply with
  | error g => exact iff_of_false (fun h => by cases h) fun ⟨a, h, _⟩ => by cases h
  | ok a =>
    rw [outcome, judge]
    by_cases success : IsSuccess a
    · rw [if_pos ((isSuccess_iff a).mpr success), readEnvelope_eq_ok_iff]
      simp [success]
    · rw [if_neg (mt (isSuccess_iff a).mp success)]
      simp [success]

/-- The failure, if any, that an operation makes of a reply. -/
def Operation.failures (o : Operation) (reply : Reply) : List Failure :=
  match o.outcome reply with
  | .error f => [f]
  | .ok _ => []

/-- What is published of a failure. -/
def Failure.published? (f : Failure) : Option MfaConsole.Event :=
  if f.isRejection then f.code?.map .sessionExpired else none

end Rest

namespace Console

/-! ### What an observer sees -/

def Happening.request? : Happening → Option Rest.Request
  | .request r => some r
  | _ => none

def Happening.failure? : Happening → Option Rest.Failure
  | .failure f => some f
  | _ => none

/-- The requests that have left the console. -/
def requests (c : Console) : List Rest.Request := c.record.filterMap (·.request?)

/-- The failures that were handed to the session. -/
def failures (c : Console) : List Rest.Failure := c.record.filterMap (·.failure?)

/-- No request leaves the console, the session is handed some failures, and the bus is told of the rejections among
    them. -/
structure Reports (fs : List Rest.Failure) (c c' : Console) : Prop where
  requests : c'.requests = c.requests
  failures : c'.failures = c.failures ++ fs
  bus : c'.bus = (fs.filterMap (·.published?)).foldl (fun b e => (b.publish e).1) c.bus

namespace Reports
variable {fs gs : List Rest.Failure} {a b c : Console}

theorem refl (c : Console) : Reports [] c c := ⟨rfl, (List.append_nil _).symm, rfl⟩

theorem trans (h : Reports fs a b) (k : Reports gs b c) : Reports (fs ++ gs) a c where
  requests := k.requests.trans h.requests
  failures := by rw [k.failures, h.failures, List.append_assoc]
  bus := by rw [k.bus, h.bus, List.filterMap_append, List.foldl_append]

theorem andThen (h : Reports fs a b) (k : Reports [] b c) : Reports fs a c :=
  (List.append_nil fs) ▸ h.trans k

/-- Something else happens. -/
theorem of_happen {h : Happening} (record : b.record = a.record ++ [h]) (bus : b.bus = a.bus)
    (hr : h.request? = none) (hf : h.failure? = none) : Reports [] a b where
  requests := by simp [Console.requests, record, hr]
  failures := by simp [Console.failures, record, hf]
  bus := bus

theorem inform (c : Console) (message : String) : Reports [] c (c.inform message) :=
  of_happen rfl rfl rfl rfl

theorem complain (c : Console) (message : String) : Reports [] c (c.complain message) :=
  of_happen rfl rfl rfl rfl

theorem go (c : Console) (url : String) : Reports [] c (c.go url) :=
  of_happen rfl rfl rfl rfl

theorem goState (c : Console) (name : String) (params : List (String × String)) :
    Reports [] c (c.goState name params) := by
  rw [Console.goState]
  split
  · exact go c _
  · exact refl c

theorem of_not_published {f : Rest.Failure} (h : f.published? = none) : Reports [f] c (c.happen (.failure f)) where
  requests := by simp [Console.requests, Console.happen, Happening.request?]
  failures := by simp [Console.failures, Console.happen, Happening.failure?]
  bus := by simp [Console.happen, h]

theorem of_published {f : Rest.Failure} {e : MfaConsole.Event} (h : f.published? = some e) :
    Reports [f] c { c.happen (.failure f) with bus := (c.bus.publish e).1 } where
  requests := by simp [Console.requests, Console.happen, Happening.request?]
  failures := by simp [Console.failures, Console.happen, Happening.failure?]
  bus := by simp [h]

/-- A failure is handed to the session once, as it stands. -/
theorem fail (c : Console) (f : Rest.Failure) : Reports [f] c (c.fail f) := by
  have told (h : f.published? = none) : Reports [f] c ((c.happen (.failure f)).complain f.message) :=
    (of_not_published h).andThen (complain _ _)
  rw [Console.fail, Console.handleFailure]
  split
  · next status code =>
    split
    · next rejection =>
      have ends : f.published? = some (.sessionExpired status) := by
        rw [Rest.Failure.published?, if_pos rejection, code]
        rfl
      let published : Console := { c.happen (.failure f) with bus := (c.bus.publish (.sessionExpired status)).1 }
      have expired :
          Reports [] published (published.changeSession { loggedIn := false, expiredStatus := some status }) :=
        of_happen rfl rfl rfl rfl
      exact ((of_published ends).andThen expired).andThen (of_happen rfl rfl rfl rfl)
    · next other => exact told (by rw [Rest.Failure.published?, if_neg other])
  · next code => exact told (by rw [Rest.Failure.published?, code]; split <;> rfl)

theorem receive (c : Console) (o : Rest.Operation) (reply : Rest.Reply) :
    Reports (o.failures reply) c (c.receive o reply).1 := by
  rw [Console.receive, Rest.Operation.failures]
  cases o.outcome reply with
  | error f => exact fail c f
  | ok e => exact refl c

theorem of_receive {o : Rest.Operation} {reply : Rest.Reply} {outcome : Outcome o.Payload}
    (h : a.receive o reply = (b, outcome)) : Reports (o.failures reply) a b := by
  have := receive a o reply
  rwa [h] at this

theorem refreshTokens (c : Console) : Reports [] c c.refreshTokens.1 := by
  rw [Console.refreshTokens]
  split
  · exact refl c
  · exact of_happen rfl rfl rfl rfl

theorem confirmSave (c : Console) (saved : Wire.Envelope Json) : Reports [] c (c.confirmSave saved) := by
  rw [Console.confirmSave]
  split
  · have fresh : Reports [] c (c.changeServers fun v => { v with fresh := true }) := of_happen rfl rfl rfl rfl
    exact (fresh.andThen (inform _ _)).andThen (goState _ _ _)
  · cases saved.errorMessage with
    | none => exact refl c
    | some message => exact complain c message

end Reports

/-! ### Calls and replies -/

/-- A call hands over nothing at once. -/
theorem reports_begin (c : Console) (call : Call) : Reports [] c (c.begin call).1 := by
  cases call with
  | mountServerList =>
    rw [begin, mountServerList]
    split
    · exact .of_happen rfl rfl rfl rfl
    · have opened : Reports [] c (c.changeServers fun v => { v with fresh := false }) := .of_happen rfl rfl rfl rfl
      exact opened.andThen (.of_happen rfl rfl rfl rfl)
  | mountServerForm identifier =>
    cases identifier with
    | none => exact .of_happen rfl rfl rfl rfl
    | some identifier =>
      have opened : Reports [] c (c.changeServers (.openForm (some identifier))) := .of_happen rfl rfl rfl rfl
      exact opened.andThen (.of_happen rfl rfl rfl rfl)
  | listServers | setServerForm | refreshServers => exact .of_happen rfl rfl rfl rfl
  | addServer form =>
    rw [begin, addServer]
    split
    · exact .refl c
    · exact .complain c _
  | saveServer =>
    rw [begin, saveServer]
    split
    · exact .refl c
    · exact .complain c _
  | listMachines => exact .of_happen rfl rfl rfl rfl
  | showDetails machineId resolver =>
    have chosen : Reports [] c (c.changeMachines (.select machineId resolver)) := .of_happen rfl rfl rfl rfl
    exact chosen.andThen (.of_happen rfl rfl rfl rfl)
  | refreshTokens =>
    have := Reports.refreshTokens c
    rw [begin]
    split <;> rename_i h <;> rw [h] at this <;> exact this
  | refreshMachines => rw [begin, refreshMachines]; split <;> exact .of_happen rfl rfl rfl rfl
  | mountClients path =>
    rw [begin, mountClients]
    split
    · exact .of_happen rfl rfl rfl rfl
    · exact .refl c
  | listClients => exact .of_happen rfl rfl rfl rfl
  | requestCode request => exact .of_happen rfl rfl rfl rfl
  | resetPassword reset confirmation => rw [begin, resetPassword]; split <;> exact .of_happen rfl rfl rfl rfl
  | deleteServer | testServer | attachToken | detachToken | saveTokenOptions => exact .refl c

theorem reports_conclude (c : Console) (e : Ending) (reply : Rest.Reply) :
    Reports (e.operation.failures reply) c (c.conclude e reply) := by
  cases e with
  | serverList load saved =>
    rw [conclude, serversListed]
    rcases h : c.receive .servers reply with ⟨c', outcome⟩
    have listed : Reports (Rest.Operation.servers.failures reply) c (c'.changeServers (.endList load outcome)) :=
      (Reports.of_receive h).andThen (.of_happen rfl rfl rfl rfl)
    cases saved with
    | none => exact listed
    | some e => exact listed.andThen (.confirmSave _ e)
  | serverTest test =>
    rw [conclude, serverTested]
    split
    · next h => exact .of_receive h
    · next h =>
      refine (Reports.of_receive h).andThen ?_
      split
      · exact .inform _ _
      · exact .complain _ _
  | machineList filter => exact (Reports.receive c (.machines filter) reply).andThen (.of_happen rfl rfl rfl rfl)
  | tokenList filter => exact (Reports.receive c (.tokens filter) reply).andThen (.of_happen rfl rfl rfl rfl)
  | clientList => exact (Reports.receive c .clientTypes reply).andThen (.of_happen rfl rfl rfl rfl)
  | recoveryCode request =>
    refine (Reports.receive c (.requestCode request) reply).andThen ?_
    rw [conclude, codeRequested]
    dsimp only
    split
    · exact (Reports.inform _ _).andThen (.of_happen rfl rfl rfl rfl)
    · exact .of_happen rfl rfl rfl rfl
  | passwordReset reset =>
    refine (Reports.receive c (.resetPassword reset) reply).andThen ?_
    rw [conclude, passwordSet]
    dsimp only
    split
    · exact ((Reports.inform _ _).andThen (.go _ _)).andThen (.of_happen rfl rfl rfl rfl)
    · exact .of_happen rfl rfl rfl rfl

theorem reports_tokensWritten (c : Console) (o : Rest.Operation) (message : String) (reply : Rest.Reply) :
    Reports (o.failures reply) c (c.tokensWritten o message reply).1 := by
  rw [tokensWritten]
  split
  · next h => exact .of_receive h
  · next e h =>
    refine ((Reports.of_receive h).andThen ?_).andThen (.refreshTokens _)
    split
    · exact .inform _ _
    · cases e.errorMessage with
      | none => exact .refl _
      | some message => exact .complain _ message

theorem reports_proceed (c : Console) (w : Writing) (reply : Rest.Reply) :
    Reports (w.operation.failures reply) c (c.proceed w reply).1 := by
  cases w with
  | attach | detach | saveOptions => exact reports_tokensWritten c _ _ reply
  | addServer form =>
    rw [proceed, serverAdded]
    split <;> next h => first | exact .of_receive h | exact (Reports.of_receive h).andThen (.of_happen rfl rfl rfl rfl)
  | saveServer form =>
    rw [proceed, serverSaved]
    split <;> next h => first | exact .of_receive h | exact (Reports.of_receive h).andThen (.of_happen rfl rfl rfl rfl)
  | deleteServer identifier =>
    rw [proceed, serverDeleted]
    split <;> next h => first | exact .of_receive h | exact (Reports.of_receive h).andThen (.of_happen rfl rfl rfl rfl)

theorem reports_applicationsListed (c : Console) (reply : Rest.Reply) :
    Reports (Rest.Operation.applications.failures reply) c (c.applicationsListed reply).1 := by
  rw [applicationsListed]
  split <;> next h => exact .of_receive h

/-- A reply hands over what failed in it. -/
theorem reports_answer (c : Console) (p : Purpose) (reply : Rest.Reply) :
    Reports (p.operation.failures reply) c (c.answer p reply).1 := by
  cases p with
  | ending e => exact reports_conclude c e reply
  | writing w => exact reports_proceed c w reply
  | applications => exact reports_applicationsListed c reply

theorem reports_offerApplications (c : Console) (applications : Option (KeyMap Json)) :
    Reports [] c (c.offerApplications applications) := by
  cases applications with
  | none => exact .refl c
  | some a => exact .of_happen rfl rfl rfl rfl

theorem requests_dispatch (c : Console) (o : Rest.Operation) :
    (c.dispatch o).1.requests = c.requests ++ [c.asked o] ∧ (c.dispatch o).1.failures = c.failures := by
  simp [Console.requests, Console.failures, dispatch, happen, asked, Happening.request?, Happening.failure?]

theorem requests_dispatchAll (os : List Rest.Operation) : ∀ c : Console,
    (c.dispatchAll os).requests = c.requests ++ os.map c.asked ∧ (c.dispatchAll os).failures = c.failures := by
  induction os with
  | nil => exact fun c => ⟨(List.append_nil _).symm, rfl⟩
  | cons o os ih =>
    intro c
    obtain ⟨requests, failures⟩ := requests_dispatch c o
    obtain ⟨more, same⟩ := ih (c.dispatch o).1
    have asked : (c.dispatch o).1.asked = c.asked := funext (SameSetup.asked ⟨rfl, rfl⟩)
    refine ⟨more.trans ?_, same.trans failures⟩
    rw [requests, asked, List.append_assoc, List.map_cons, List.singleton_append]

/-! ### Operations -/

/-- How an operation is carried out, whatever the backend: one request is sent, with the authorization of that moment,
    and its reply is judged once. What failed is handed over and returned as it is, and else the envelope is
    returned. -/
structure Performs (o : Rest.Operation) : Prop where
  authorized : ∀ c : Console, c.asked o = { o.request c.setup.endpoints with authorization := c.authorization }
  sent : ∀ {β : Type} (answer : Backend β) (d : Desk β),
    ((d.send answer o).1.backend, (d.send answer o).2.2) = answer d.backend d.sent (d.console.asked o) ∧
      (d.send answer o).1.console.requests = d.console.requests ++ [d.console.asked o] ∧
      (d.send answer o).1.console.failures = d.console.failures
  failed : ∀ (c : Console) (reply : Rest.Reply) (f : Rest.Failure), (c.receive o reply).2 = .error f ↔ o.Fails reply f
  succeeded : ∀ (c : Console) (reply : Rest.Reply) (e : Wire.Envelope o.Payload), (c.receive o reply).2 = .ok e ↔
    ∃ a, reply = .ok a ∧ Rest.IsSuccess a ∧ Wire.Envelope.read o.payload a.body = some e
  reported : ∀ (c : Console) (reply : Rest.Reply), (c.receive o reply).1.requests = c.requests ∧
    (c.receive o reply).1.failures = c.failures ++ o.failures reply

theorem performs (o : Rest.Operation) : Performs o where
  authorized _ := rfl
  sent answer d := ⟨rfl, requests_dispatch d.console o⟩
  failed c reply f := by rw [receive_snd, Rest.Operation.outcome_eq_error_iff]
  succeeded c reply e := by rw [receive_snd, Rest.Operation.outcome_eq_ok_iff]
  reported c reply := ⟨(Reports.receive c o reply).requests, (Reports.receive c o reply).failures⟩

/-! ### Runs -/

def Event.answered? : Event → Option Purpose
  | .answered p _ => some p
  | .called _ => none

def Event.failures : Event → List Rest.Failure
  | .answered p reply => p.operation.failures reply
  | .called _ => []

/-- Each request sent in a run was for what has been answered or is still in flight, and for each of these there was
    one; the session was handed the failures of the replies, in their order. All go out with the authorization of the
    first console, since it is left out that the browser forgets the token after a rejection. -/
structure Accounted (first : Console) (d : Desk Unit) (es : List Event) : Prop where
  requests : d.console.requests.Perm (first.requests ++
    (es.filterMap Event.answered? ++ d.inFlight.map Prod.snd).map fun p => first.asked p.operation)
  failures : d.console.failures = first.failures ++ es.flatMap Event.failures

variable {admits : Desk Unit → Call → Prop} {first : Console} {d : Desk Unit} {es : List Event}

theorem Desk.sameSetup_dispatchAll (os : List Rest.Operation) : ∀ c : Console, SameSetup c (c.dispatchAll os) := by
  induction os with
  | nil => exact .refl
  | cons o os ih => exact fun c => SameSetup.trans (b := (c.dispatch o).1) ⟨rfl, rfl⟩ (ih _)

theorem sameSetup_answer (c : Console) (p : Purpose) (reply : Rest.Reply) : SameSetup c (c.answer p reply).1 := by
  cases p with
  | ending e => exact sameSetup_conclude c e reply
  | writing w => exact sameSetup_proceed c w reply
  | applications => exact sameSetup_applicationsListed c reply

theorem Reached.sameSetup (h : Reached admits first d es) : SameSetup first d.console := by
  induction h with
  | start => exact .refl first
  | @call d es c h _ ih =>
    rw [Desk.console_call]
    exact (ih.trans (sameSetup_begin d.console c)).trans (Desk.sameSetup_dispatchAll _ _)
  | @reply d es ticket p h hp reply ih =>
    obtain ⟨as, bs, hf⟩ := List.append_of_mem hp
    obtain ⟨applications, answered⟩ := (Desk.deliver_awaited h.tidy hf reply).1.console
    rw [answered]
    exact ((ih.trans (sameSetup_answer d.console p reply)).trans (Desk.sameSetup_dispatchAll _ _)).trans
      (sameSetup_offerApplications _ _)

/-- What is in flight moves on: `x` is done, and `new` is in flight in its place. -/
theorem perm_moved {α : Type} (done as bs new : List α) (x : α) :
    ((done ++ (as ++ x :: bs)) ++ new).Perm ((done ++ [x]) ++ (as ++ new ++ bs)) := by
  simp only [List.append_assoc, List.singleton_append]
  refine List.Perm.append_left done ?_
  have moved : (as ++ x :: (bs ++ new)).Perm (x :: (as ++ (bs ++ new))) := List.perm_middle
  have swapped : (bs ++ new).Perm (new ++ bs) := List.perm_append_comm
  exact moved.trans ((swapped.append_left as).cons x)

namespace Accounted

theorem start (first : Console) : Accounted first (.ofConsole first ()) [] where
  requests := .of_eq (List.append_nil _).symm
  failures := (List.append_nil _).symm

theorem call (h : Accounted first d es) (same : SameSetup first d.console) (c : Call) :
    Accounted first (d.call silent c) (es ++ [.called c]) where
  requests := by
    have asked : (d.console.begin c).1.asked = first.asked := funext (same.trans (sameSetup_begin d.console c)).asked
    have inFlight : (d.call silent c).inFlight.map Prod.snd =
        d.inFlight.map Prod.snd ++ (d.console.begin c).2.purposes := by
      rw [Desk.inFlight_call, List.map_append, snd_numbered]
    have answered : (es ++ [Event.called c]).filterMap Event.answered? = es.filterMap Event.answered? := by
      rw [List.filterMap_append, List.filterMap_cons_none rfl, List.filterMap_nil, List.append_nil]
    rw [Desk.console_call, (requests_dispatchAll _ _).1, (reports_begin d.console c).requests, inFlight, answered,
      asked, List.map_map, ← List.append_assoc, List.map_append, ← List.append_assoc]
    exact h.requests.append_right _
  failures := by
    rw [Desk.console_call, (requests_dispatchAll _ _).2, (reports_begin d.console c).failures, h.failures,
      List.flatMap_append, ← List.append_assoc]
    rfl

theorem reply (h : Accounted first d es) (same : SameSetup first d.console) (tidy : d.Tidy) {ticket : Nat} {p : Purpose}
    (hp : (ticket, p) ∈ d.inFlight) (reply : Rest.Reply) :
    Accounted first (d.deliver silent [(ticket, reply)]) (es ++ [.answered p reply]) := by
  obtain ⟨as, bs, hf⟩ := List.append_of_mem hp
  obtain ⟨answers, inFlight, -⟩ := Desk.deliver_awaited tidy hf reply
  obtain ⟨applications, answered⟩ := answers.console
  constructor
  case requests =>
    have asked : (d.console.answer p reply).1.asked = first.asked :=
      funext (same.trans (sameSetup_answer d.console p reply)).asked
    have done : (es ++ [Event.answered p reply]).filterMap Event.answered? = es.filterMap Event.answered? ++ [p] := by
      rw [List.filterMap_append, List.filterMap_cons_some (by rfl), List.filterMap_nil]
    rw [answered, (reports_offerApplications _ _).requests, (requests_dispatchAll _ _).1,
      (reports_answer d.console p reply).requests, inFlight, done, asked, List.map_map]
    have before := h.requests
    rw [hf] at before
    refine (before.append_right _).trans ?_
    have moved := (perm_moved (es.filterMap Event.answered?) (as.map Prod.snd) (bs.map Prod.snd)
      ((d.console.answer p reply).2.toList.map Purpose.ending) p).map fun p => first.asked p.operation
    simp only [List.map_append, List.map_cons, List.map_nil, List.map_map, Desk.followUp, snd_numbered,
      List.append_assoc] at moved ⊢
    exact moved.append_left first.requests
  case failures =>
    rw [answered, (reports_offerApplications _ _).failures, (requests_dispatchAll _ _).2,
      (reports_answer d.console p reply).failures, h.failures, List.flatMap_append]
    simp [Event.failures]

end Accounted

theorem Reached.accounted (h : Reached admits first d es) : Accounted first d es := by
  induction h with
  | start => exact .start first
  | call h _ ih => exact ih.call h.sameSetup _
  | reply h hp r ih => exact ih.reply h.sameSetup h.tidy hp r

/-- An operation sends one request and hands the session what failed of its reply, once and as it is; and of all that is
    called and answered in a run, nothing is sent again, and nothing else reaches the session. -/
theorem failures_reach_session : (∀ o, Performs o) ∧
    ∀ {admits : Desk Unit → Call → Prop} {first : Console} {d : Desk Unit} {es : List Event},
      Reached admits first d es → Accounted first d es :=
  ⟨performs, Reached.accounted⟩

def unauthorized : Rest.Reply := .ok { status := 401, body := .null, shapeReason := "" }

/-- A listing is refused: one request has been sent, and the session has the refusal. -/
theorem failures_reach_session_refused :
    let first := Console.start .bare (some "token")
    let d := ((Desk.ofConsole first ()).call silent (.listServers none)).deliver silent [(0, unauthorized)]
    Accounted first d [.called (.listServers none), .answered (.ending (.serverList none none)) unauthorized] ∧
      d.console.requests.length = 1 ∧ d.console.failures = [.ofAnswer 401 .null] := by
  intro first d
  have called : Reached anyTime first _ [.called (.listServers none)] := Reached.start.call trivial
  have refused : Reached anyTime first d [.called (.listServers none), .answered _ unauthorized] :=
    called.reply (p := .ending (.serverList none none)) (.head _) unauthorized
  have accounted := failures_reach_session.2 refused
  exact ⟨accounted, accounted.requests.length_eq, accounted.failures⟩

end Console
end MfaConsole
