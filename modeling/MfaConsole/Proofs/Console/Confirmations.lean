import MfaConsole.Proofs.Console.Exchanges
import MfaConsole.Proofs.Console.Reached

/-! Which successes the console tells the administrator of. A success is told once, when the backend has confirmed it,
    and in no other case: a write is confirmed by the status of its answer, a trial and the steps of a recovery by the
    value true. Two of the successes also take the administrator elsewhere. -/

namespace MfaConsole
namespace Console

/-! ### Successes -/

/-- What may be told as a success. -/
inductive Success where
  | saved
  | attached
  | detached
  | optionsSaved
  | testPassed
  | codeSent
  | passwordReset
  deriving DecidableEq

namespace Success

def message : Success → String
  | .saved => savedMessage
  | .attached => attachedMessage
  | .detached => detachedMessage
  | .optionsSaved => optionsSavedMessage
  | .testPassed => testPassedMessage
  | .codeSent => codeSentMessage
  | .passwordReset => passwordResetMessage

/-- Where the administrator is taken: to the list of the definitions, or to the login. -/
def url? (r : Navigation.Registry) : Success → Option String
  | .saved => r.href? Navigation.serverListState []
  | .passwordReset => some "/"
  | _ => none

/-- An answer that confirms a success. A write has succeeded by its status, whatever it returns; the others by the value
    true, whatever the status. -/
def IsToldBy : Success → Wire.Envelope Json → Prop
  | .saved, e | .attached, e | .detached, e | .optionsSaved, e => e.result.status = true
  | .testPassed, e | .codeSent, e | .passwordReset, e => e.result.value = some (.bool true)

theorem isTrue_iff (e : Wire.Envelope Json) : e.isTrue = true ↔ e.result.value = some (.bool true) := by
  rw [Wire.Envelope.isTrue]
  split
  · next h => simp [h]
  · next h =>
    rw [Bool.false_eq_true, false_iff]
    exact h

instance (s : Success) (e : Wire.Envelope Json) : Decidable (s.IsToldBy e) :=
  match s with
  | .saved | .attached | .detached | .optionsSaved => inferInstanceAs (Decidable (e.result.status = true))
  | .testPassed | .codeSent | .passwordReset => decidable_of_iff (e.isTrue = true) (isTrue_iff e)

/-- The reply to a request confirms a success: it is an answer of success with an envelope that says so. -/
def confirmedBy (s : Success) (reply : Rest.Reply) : Bool :=
  match Rest.judge Wire.anything reply with
  | .ok e => s.IsToldBy e
  | .error _ => false

end Success

/-- The success that a call is for, if it is for one that is told. -/
def Call.success? : Call → Option Success
  | .saveServer => some .saved
  | .attachToken _ => some .attached
  | .detachToken _ => some .detached
  | .saveTokenOptions _ => some .optionsSaved
  | .testServer _ _ => some .testPassed
  | .requestCode _ => some .codeSent
  | .resetPassword _ _ => some .passwordReset
  | _ => none

/-- The successes that a call's exchanges confirm. The reply to what the call sends says so, and none to a listing. -/
def Call.confirmed (call : Call) (made : List Exchange) : List Success :=
  (made.filter fun x => x.request.method ≠ .get).flatMap fun x => call.success?.toList.filter (·.confirmedBy x.reply)

/-! ### What the administrator sees -/

/-- The notices of success. -/
def informed (c : Console) : List String := (c.notices.items.filter (·.kind = .info)).map (·.message)

def Happening.went? : Happening → Option String
  | .went url => some url
  | _ => none

/-- Where the administrator has been taken. -/
def visited (c : Console) : List String := c.record.filterMap (·.went?)

/-- Some successes are told, each with one notice, and the administrator is taken where they lead; nothing else is told
    as a success, and nothing else leads anywhere. -/
structure Announces (ss : List Success) (c c' : Console) : Prop where
  setup : c'.setup = c.setup
  informed : c'.informed = c.informed ++ ss.map fun s => c.translate s.message
  visited : c'.visited = c.visited ++ ss.flatMap fun s => (s.url? c.setup.registry).toList

namespace Announces
variable {ss ts : List Success} {a b c : Console}

theorem refl (c : Console) : Announces [] c c := ⟨rfl, (List.append_nil _).symm, (List.append_nil _).symm⟩

theorem trans (h : Announces ss a b) (k : Announces ts b c) : Announces (ss ++ ts) a c where
  setup := k.setup.trans h.setup
  informed := by
    rw [k.informed, h.informed, List.map_append, List.append_assoc]
    simp only [translate, h.setup]
  visited := by rw [k.visited, h.visited, h.setup, List.flatMap_append, List.append_assoc]

theorem andThen (h : Announces ss a b) (k : Announces [] b c) : Announces ss a c :=
  (List.append_nil ss) ▸ h.trans k

theorem after (h : Announces [] a b) (k : Announces ss b c) : Announces ss a c := h.trans k

/-- Something else happens. -/
theorem of_happen {h : Happening} (record : b.record = a.record ++ [h]) (setup : b.setup = a.setup)
    (notices : b.informed = a.informed) (hw : h.went? = none) : Announces [] a b where
  setup := setup
  informed := by rw [notices, List.map_nil, List.append_nil]
  visited := by simp [Console.visited, record, hw]

theorem complain (c : Console) (message : String) : Announces [] c (c.complain message) :=
  of_happen rfl rfl (by simp [Console.informed, Console.complain, changeNotices, happen, Notices.add]) rfl

theorem fail (c : Console) (f : Rest.Failure) : Announces [] c (c.fail f) := by
  have handed : Announces [] c (c.happen (.failure f)) := of_happen rfl rfl rfl rfl
  refine handed.andThen ?_
  rw [Console.fail, handleFailure]
  split
  · split
    · next status _ _ =>
      let expired := (c.happen (.failure f)).changeSession { loggedIn := false, expiredStatus := some status }
      have ended : Announces [] (c.happen (.failure f)) expired := of_happen rfl rfl rfl rfl
      obtain ⟨setup, informed, visited⟩ := ended.andThen (complain expired (expired.translate expiredMessage))
      exact ⟨setup, informed, visited⟩
    · exact complain _ _
  · exact complain _ _

theorem receive (c : Console) (o : Rest.Operation) (reply : Rest.Reply) : Announces [] c (c.receive o reply).1 := by
  rw [Console.receive]
  split
  · exact refl c
  · exact fail c _

theorem of_receive {o : Rest.Operation} {reply : Rest.Reply} {outcome : Outcome o.Payload}
    (h : a.receive o reply = (b, outcome)) : Announces [] a b := by
  have := receive a o reply
  rwa [h] at this

/-- A notice of success is told, and leads nowhere. -/
theorem inform (c : Console) (s : Success) (stays : s.url? c.setup.registry = none) :
    Announces [s] c (c.inform s.message) where
  setup := rfl
  informed := by simp [Console.informed, Console.inform, changeNotices, happen, Notices.add]
  visited := by simp [Console.visited, Console.inform, changeNotices, happen, Happening.went?, stays]

/-- A notice of success is told, and leads to a URL. -/
theorem inform_go (c : Console) (s : Success) {url : String} (leads : s.url? c.setup.registry = some url) :
    Announces [s] c ((c.inform s.message).go url) where
  setup := rfl
  informed := by simp [Console.informed, Console.inform, changeNotices, happen, Notices.add, Console.go]
  visited := by simp [Console.visited, Console.inform, changeNotices, happen, Console.go, Happening.went?, leads]

theorem refreshTokens (c : Console) : Announces [] c c.refreshTokens.1 := by
  rw [Console.refreshTokens]
  split
  · exact refl c
  · exact of_happen rfl rfl rfl rfl

end Announces

/-! ### Calls -/

/-- The success that the reply to a request is awaited for. -/
def Purpose.success? : Purpose → Option Success
  | .writing (.saveServer _) => some .saved
  | .writing (.attach _) => some .attached
  | .writing (.detach _) => some .detached
  | .writing (.saveOptions _) => some .optionsSaved
  | .ending (.serverTest _) => some .testPassed
  | .ending (.recoveryCode _) => some .codeSent
  | .ending (.passwordReset _) => some .passwordReset
  | _ => none

/-- The success that a reply confirms. -/
def Purpose.confirms (p : Purpose) (reply : Rest.Reply) : List Success :=
  p.success?.toList.filter (·.confirmedBy reply)

/-- The success that has been confirmed and waits to be told: a save is told after the listing that follows it. -/
def Purpose.owes : Purpose → List Success
  | .ending (.serverList _ (some saved)) => if saved.succeeded then [.saved] else []
  | _ => []

/-- A call begins: no success is told, and what is asked for is for the success of the call, if it is for one. -/
structure Begins (call : Call) (c : Console) (next : Console × Opening) : Prop where
  announces : Announces [] c next.1
  awaits : ∀ p ∈ next.2.purposes, p.success? = call.success? ∧ p.owes = []

namespace Begins
variable {call : Call} {c c' : Console}

theorem settled (h : Announces [] c c') : Begins call c (c', .settled) := ⟨h, fun _ hp => absurd hp List.not_mem_nil⟩

theorem asks {o : Opening} {p : Purpose} (h : Announces [] c c') (one : o.purposes = [p])
    (same : p.success? = call.success?) (owes : p.owes = []) : Begins call c (c', o) := by
  refine ⟨h, fun q hq => ?_⟩
  rw [one] at hq
  exact List.mem_singleton.mp hq ▸ ⟨same, owes⟩

end Begins

theorem begins (c : Console) (call : Call) : Begins call c (c.begin call) := by
  cases call with
  | mountServerList =>
    have opened : Announces [] c (c.changeServers fun v => { v with fresh := false }) := .of_happen rfl rfl rfl rfl
    rw [begin, mountServerList]
    split
    · exact .settled opened
    · exact .asks (opened.andThen (.of_happen rfl rfl rfl rfl)) rfl rfl rfl
  | mountServerForm identifier =>
    have opened : Announces [] c (c.changeServers (.openForm identifier)) := .of_happen rfl rfl rfl rfl
    cases identifier with
    | none => exact .settled opened
    | some identifier => exact .asks (opened.andThen (.of_happen rfl rfl rfl rfl)) rfl rfl rfl
  | setServerForm form => exact .settled (.of_happen rfl rfl rfl rfl)
  | addServer form =>
    rw [begin, addServer]
    split
    · exact .asks (.refl c) rfl rfl rfl
    · exact .settled (.complain c _)
  | saveServer =>
    rw [begin, saveServer]
    split
    · exact .asks (.refl c) rfl rfl rfl
    · exact .settled (.complain c _)
  | showDetails machineId resolver =>
    have chosen : Announces [] c (c.changeMachines (.select machineId resolver)) := .of_happen rfl rfl rfl rfl
    refine ⟨chosen.andThen (.of_happen rfl rfl rfl rfl), fun p hp => ?_⟩
    rcases List.mem_cons.mp hp with rfl | hp
    · exact ⟨rfl, rfl⟩
    · exact List.mem_singleton.mp hp ▸ ⟨rfl, rfl⟩
  | refreshTokens =>
    rw [begin, refreshTokens]
    cases c.machines.selected with
    | none => exact .settled (.refl c)
    | some machine => exact .asks (.of_happen rfl rfl rfl rfl) rfl rfl rfl
  | refreshMachines =>
    rw [begin, refreshMachines]
    cases c.machines.selected <;> exact .asks (.of_happen rfl rfl rfl rfl) rfl rfl rfl
  | mountClients path =>
    rw [begin, mountClients]
    split
    · exact .asks (.of_happen rfl rfl rfl rfl) rfl rfl rfl
    · exact .settled (.refl c)
  | resetPassword reset confirmation =>
    rw [begin, resetPassword]
    split
    · exact .asks (.of_happen rfl rfl rfl rfl) rfl rfl rfl
    · exact .settled (.of_happen rfl rfl rfl rfl)
  | listServers | refreshServers | listMachines | listClients | requestCode =>
    exact .asks (.of_happen rfl rfl rfl rfl) rfl rfl rfl
  | deleteServer | testServer | attachToken | detachToken | saveTokenOptions => exact .asks (.refl c) rfl rfl rfl

/-! ### Replies -/

section Replies
variable {c c' : Console} {p : Purpose} {s : Success} {reply : Rest.Reply}

/-- Whether a write has been answered, and carried out by its status. -/
def written {α : Type} : Outcome α → Bool
  | .ok e => e.succeeded
  | .error _ => false

theorem Success.confirmedBy_of_status (hs : ∀ e, s.IsToldBy e ↔ e.result.status = true) :
    s.confirmedBy reply = written (Rest.judge Wire.anything reply) := by
  rw [confirmedBy]
  cases Rest.judge Wire.anything reply with
  | error f => rfl
  | ok e =>
    show decide (s.IsToldBy e) = e.result.status
    rw [Bool.eq_iff_iff, decide_eq_true_iff, hs]

theorem Success.confirmedBy_of_value (hs : ∀ e, s.IsToldBy e ↔ e.result.value = some (.bool true))
    {outcome : Outcome Json} (judged : outcome = Rest.judge Wire.anything reply) :
    s.confirmedBy reply = confirmed outcome := by
  rw [confirmedBy, judged]
  cases Rest.judge Wire.anything reply with
  | error f => rfl
  | ok e =>
    show decide (s.IsToldBy e) = e.isTrue
    rw [Bool.eq_iff_iff, decide_eq_true_iff, hs, isTrue_iff]

theorem Purpose.confirms_of_some (h : p.success? = some s) :
    p.confirms reply = if s.confirmedBy reply then [s] else [] := by
  rw [confirms, h, Option.toList_some, List.filter_cons, List.filter_nil]

theorem Purpose.confirms_of_none (h : p.success? = none) : p.confirms reply = [] := by
  rw [confirms, h]
  rfl

/-- A save is told if it is confirmed, and leads to the list. -/
theorem Announces.confirmSave (c : Console) (e : Wire.Envelope Json) :
    Announces (if e.succeeded then [.saved] else []) c (c.confirmSave e) := by
  rw [Console.confirmSave]
  split
  · have fresh : Announces [] c (c.changeServers fun v => { v with fresh := true }) := .of_happen rfl rfl rfl rfl
    refine fresh.after ?_
    rw [goState]
    split
    · next found => exact .inform_go _ .saved (congrArg Except.toOption found)
    · next lost => exact .inform _ .saved (congrArg Except.toOption lost)
  · cases e.errorMessage with
    | none => exact .refl c
    | some message => exact .complain c message

/-- The reply that ends a call tells what it confirms, and what was owed until it came. -/
theorem announces_conclude (c : Console) (e : Ending) (reply : Rest.Reply) :
    Announces ((Purpose.ending e).owes ++ (Purpose.ending e).confirms reply) c (c.conclude e reply) := by
  cases e with
  | serverList load saved =>
    rw [conclude, serversListed, Purpose.confirms_of_none rfl, List.append_nil]
    rcases h : c.receive .servers reply with ⟨c', outcome⟩
    have listed : Announces [] c (c'.changeServers (.endList load outcome)) :=
      (Announces.of_receive h).andThen (.of_happen rfl rfl rfl rfl)
    cases saved with
    | none => exact listed
    | some e => exact listed.after (.confirmSave _ e)
  | machineList filter => exact (Announces.receive c (.machines filter) reply).andThen (.of_happen rfl rfl rfl rfl)
  | tokenList filter => exact (Announces.receive c (.tokens filter) reply).andThen (.of_happen rfl rfl rfl rfl)
  | clientList => exact (Announces.receive c .clientTypes reply).andThen (.of_happen rfl rfl rfl rfl)
  | serverTest test =>
    have told : Success.testPassed.confirmedBy reply = confirmed (c.receive (.testServer test) reply).2 :=
      Success.confirmedBy_of_value (fun _ => Iff.rfl) (receive_snd c _ reply)
    rw [conclude, serverTested, Purpose.confirms_of_some (s := .testPassed) rfl]
    rcases h : c.receive (.testServer test) reply with ⟨c', f | e⟩ <;> rw [h] at told
    · rw [told]
      exact .of_receive h
    · refine (Announces.of_receive h).after ?_
      dsimp only
      by_cases passed : Wire.Envelope.isTrue e = true
      · rw [told.trans passed, if_pos passed]
        exact .inform c' .testPassed rfl
      · rw [told.trans (Bool.eq_false_iff.mpr passed), if_neg passed]
        exact .complain c' _
  | recoveryCode request =>
    have told : Success.codeSent.confirmedBy reply = confirmed (c.receive (.requestCode request) reply).2 :=
      Success.confirmedBy_of_value (fun _ => Iff.rfl) (receive_snd c _ reply)
    rw [conclude, codeRequested, Purpose.confirms_of_some (s := .codeSent) rfl, told]
    refine (Announces.receive c (.requestCode request) reply).after ?_
    dsimp only
    split
    · exact (Announces.inform _ .codeSent rfl).andThen (.of_happen rfl rfl rfl rfl)
    · exact .of_happen rfl rfl rfl rfl
  | passwordReset reset =>
    have told : Success.passwordReset.confirmedBy reply = confirmed (c.receive (.resetPassword reset) reply).2 :=
      Success.confirmedBy_of_value (fun _ => Iff.rfl) (receive_snd c _ reply)
    rw [conclude, passwordSet, Purpose.confirms_of_some (s := .passwordReset) rfl, told]
    refine (Announces.receive c (.resetPassword reset) reply).after ?_
    dsimp only
    split
    · exact (Announces.inform_go _ .passwordReset rfl).andThen (.of_happen rfl rfl rfl rfl)
    · exact .of_happen rfl rfl rfl rfl

/-- A reply is dealt with: what it confirms and what was owed is told now, or is owed by the listing that follows, which
    is for no success of its own. -/
structure Settles (p : Purpose) (reply : Rest.Reply) (c : Console) (next : Console × Option Ending) : Prop where
  told : ∃ told, Announces told c next.1 ∧
    told ++ next.2.toList.flatMap (fun e => (Purpose.ending e).owes) = p.owes ++ p.confirms reply
  lists : ∀ e ∈ next.2, (Purpose.ending e).success? = none

theorem Settles.over (h : Announces [] c c') (owed : p.owes ++ p.confirms reply = []) :
    Settles p reply c (c', none) :=
  ⟨⟨[], h, owed.symm⟩, fun _ he => nomatch he⟩

theorem Settles.relisted (h : Announces [] c c') {saved : Option (Wire.Envelope Json)}
    (owed : (Purpose.ending (.serverList none saved)).owes = p.owes ++ p.confirms reply) :
    Settles p reply c ((c'.listServers none saved).map id some) := by
  have listing : Announces [] c' (c'.listServers none saved).1 := .of_happen rfl rfl rfl rfl
  refine ⟨⟨[], h.andThen listing, (List.append_nil _).trans owed⟩, ?_⟩
  rintro e ⟨⟩
  rfl

theorem refreshTokens_lists (c : Console) :
    ∀ e ∈ c.refreshTokens.2, (Purpose.ending e).success? = none ∧ (Purpose.ending e).owes = [] := by
  rw [refreshTokens]
  split
  · intro e he
    cases he
  · rintro e ⟨⟩
    exact ⟨rfl, rfl⟩

theorem settles_tokensWritten (c : Console) {o : Rest.Operation} (success : p.success? = some s) (owes : p.owes = [])
    (stays : s.url? c.setup.registry = none) (told : s.confirmedBy reply = written (o.outcome reply)) :
    Settles p reply c (c.tokensWritten o s.message reply) := by
  rw [← receive_snd c o reply] at told
  have confirms : p.confirms reply = _ := Purpose.confirms_of_some success
  rw [tokensWritten]
  rcases h : c.receive o reply with ⟨c', f | e⟩
  · rw [h] at told
    refine .over (.of_receive h) ?_
    rw [owes, confirms, told]
    rfl
  · rw [h] at told
    have received : Announces [] c c' := .of_receive h
    let shown := if e.succeeded then c'.inform s.message else e.errorMessage.elim c' c'.complain
    have announced : Announces (if e.succeeded then [s] else []) c shown := by
      refine received.after ?_
      unfold shown
      split
      · exact .inform c' s (received.setup ▸ stays)
      · cases e.errorMessage with
        | none => exact .refl c'
        | some message => exact .complain c' message
    have owed : shown.refreshTokens.2.toList.flatMap (fun e => (Purpose.ending e).owes) = [] :=
      List.flatMap_eq_nil_iff.mpr fun e he => (refreshTokens_lists shown e (Option.mem_toList.mp he)).2
    refine ⟨⟨_, announced.andThen (.refreshTokens shown), ?_⟩, fun e he => (refreshTokens_lists shown e he).1⟩
    rw [owed, owes, confirms, told, List.append_nil]
    rfl

theorem settles_proceed (c : Console) (w : Writing) (reply : Rest.Reply) :
    Settles (.writing w) reply c (c.proceed w reply) := by
  have status {s : Success} (hs : ∀ e, s.IsToldBy e ↔ e.result.status = true) :
      s.confirmedBy reply = written (Rest.judge Wire.anything reply) := Success.confirmedBy_of_status hs
  cases w with
  | attach attachment => exact settles_tokensWritten c (s := .attached) rfl rfl rfl (status fun _ => Iff.rfl)
  | detach key => exact settles_tokensWritten c (s := .detached) rfl rfl rfl (status fun _ => Iff.rfl)
  | saveOptions options => exact settles_tokensWritten c (s := .optionsSaved) rfl rfl rfl (status fun _ => Iff.rfl)
  | addServer form =>
    rw [proceed, serverAdded]
    rcases h : c.receive (.setServer form) reply with ⟨c', f | e⟩
    · exact .over (.of_receive h) rfl
    · exact .relisted (.of_receive h) rfl
  | deleteServer identifier =>
    rw [proceed, serverDeleted]
    rcases h : c.receive (.deleteServer identifier) reply with ⟨c', f | e⟩
    · exact .over (.of_receive h) rfl
    · exact .relisted (.of_receive h) rfl
  | saveServer form =>
    have told : Success.saved.confirmedBy reply = written (c.receive (.setServer form) reply).2 := by
      rw [receive_snd]
      exact status fun _ => Iff.rfl
    have confirms : (Purpose.writing (.saveServer form)).confirms reply = _ :=
      Purpose.confirms_of_some (s := .saved) rfl
    rw [proceed, serverSaved]
    rcases h : c.receive (.setServer form) reply with ⟨c', f | e⟩ <;> rw [h] at told <;> rw [told] at confirms
    · exact .over (.of_receive h) confirms
    · exact .relisted (.of_receive h) confirms.symm

theorem announces_applicationsListed (c : Console) (reply : Rest.Reply) :
    Announces [] c (c.applicationsListed reply).1 := by
  rw [applicationsListed]
  split <;> next h => exact .of_receive h

/-- What a reply confirms is told, or owed by the listing that follows. -/
theorem settles_answer (c : Console) (p : Purpose) (reply : Rest.Reply) : Settles p reply c (c.answer p reply) := by
  cases p with
  | ending e => exact ⟨⟨_, announces_conclude c e reply, List.append_nil _⟩, fun e he => nomatch he⟩
  | writing w => exact settles_proceed c w reply
  | applications => exact .over (announces_applicationsListed c reply) rfl

end Replies

/-! ### Calls carried through -/

theorem Announces.dispatch (c : Console) (o : Rest.Operation) : Announces [] c (c.dispatch o).1 :=
  .of_happen rfl rfl rfl rfl

theorem Announces.offerApplications (c : Console) (applications : Option (KeyMap Json)) :
    Announces [] c (c.offerApplications applications) := by
  cases applications with
  | none => exact .refl c
  | some a => exact .of_happen rfl rfl rfl rfl

theorem Purpose.method_ne_get {p : Purpose} {s : Success} (h : p.success? = some s) (c : Console) :
    (c.asked p.operation).method ≠ .get := by
  cases p with
  | applications => cases h
  | ending e =>
    cases e with
    | serverList | machineList | tokenList | clientList => cases h
    | serverTest | recoveryCode | passwordReset => exact nofun
  | writing w =>
    cases w with
    | addServer | deleteServer => cases h
    | saveServer | attach | detach | saveOptions => exact nofun

namespace Call
variable {call : Call}

theorem confirmed_append (xs ys : List Exchange) :
    call.confirmed (xs ++ ys) = call.confirmed xs ++ call.confirmed ys := by
  rw [confirmed, List.filter_append, List.flatMap_append]
  rfl

/-- What is asked for a success is confirmed by the reply to it. -/
theorem confirmed_own (c : Console) {p : Purpose} (same : p.success? = call.success?) (reply : Rest.Reply) :
    call.confirmed [⟨c.asked p.operation, reply⟩] = p.confirms reply := by
  cases h : p.success? with
  | none =>
    rw [Purpose.confirms_of_none h]
    simp [confirmed, ← same, h]
  | some s =>
    have sends := Purpose.method_ne_get h c
    rw [confirmed, List.filter_cons, if_pos (by simpa using sends), List.filter_nil, List.flatMap_singleton, ← same]
    rfl

/-- A listing confirms nothing. -/
theorem confirmed_listing (c : Console) {e : Ending} (lists : (Purpose.ending e).success? = none) (reply : Rest.Reply) :
    call.confirmed [⟨c.asked e.operation, reply⟩] = [] := by
  have gets : (c.asked e.operation).method = .get := by
    cases e with
    | serverList | machineList | tokenList | clientList => rfl
    | serverTest | recoveryCode | passwordReset => cases lists
  rw [confirmed, List.filter_cons, if_neg (by simp [gets])]
  rfl

end Call

/-- What a call tells once it has begun: what is confirmed to it. -/
theorem announces_made {call : Call} {c c' : Console} {o : Opening} {made : List Exchange} (h : Made c o made c')
    (awaits : ∀ p ∈ o.purposes, p.success? = call.success? ∧ p.owes = []) :
    Announces (call.confirmed made) c c' := by
  cases h with
  | settled => exact .refl c
  | ending e reply =>
    obtain ⟨same, owes⟩ := awaits _ List.mem_cons_self
    have told := announces_conclude (c.dispatch e.operation).1 e reply
    rw [owes, List.nil_append, ← Call.confirmed_own c same] at told
    exact (Announces.dispatch c _).after told
  | @written _ w reply h =>
    obtain ⟨same, owes⟩ := awaits _ List.mem_cons_self
    obtain ⟨told, ht, settled⟩ := (settles_proceed (c.dispatch w.operation).1 w reply).told
    rw [h, owes, List.nil_append, ← Call.confirmed_own c same] at settled
    rw [h] at ht
    obtain rfl : told = call.confirmed _ := by simpa using settled
    exact (Announces.dispatch c _).after ht
  | @relisted middle w answer e reply h =>
    obtain ⟨same, owes⟩ := awaits _ List.mem_cons_self
    obtain ⟨⟨told, ht, settled⟩, lists⟩ := settles_proceed (c.dispatch w.operation).1 w answer
    rw [h] at ht settled lists
    have listed := announces_conclude (middle.dispatch e.operation).1 e reply
    rw [Purpose.confirms_of_none (lists e rfl), List.append_nil] at listed
    have all : told ++ (Purpose.ending e).owes =
        call.confirmed ([⟨c.asked w.operation, answer⟩] ++ [⟨middle.asked e.operation, reply⟩]) := by
      have own : call.confirmed [⟨c.asked w.operation, answer⟩] = _ := Call.confirmed_own c same answer
      rw [Call.confirmed_append, own, Call.confirmed_listing middle (lists e rfl)]
      simpa [owes] using settled
    exact all ▸ ((Announces.dispatch c _).after ht).trans ((Announces.dispatch middle _).after listed)
  | @details middle last tokens answer reply applications h k =>
    obtain ⟨same, owes⟩ := awaits _ List.mem_cons_self
    obtain ⟨other, -⟩ := awaits .applications (List.mem_cons_of_mem _ List.mem_cons_self)
    have tokensListed := announces_conclude (c.dispatch tokens.operation).1 tokens answer
    have applicationsListed := announces_applicationsListed (middle.dispatch .applications).1 reply
    have confirms : (Purpose.ending tokens).confirms answer = [] := Purpose.confirms_of_none (same.trans other.symm)
    rw [owes, confirms, h] at tokensListed
    rw [k] at applicationsListed
    have nothing :
        call.confirmed ([⟨c.asked tokens.operation, answer⟩] ++ [⟨middle.asked .applications, reply⟩]) = [] := by
      have own : call.confirmed [⟨c.asked tokens.operation, answer⟩] = [] :=
        (Call.confirmed_own c same answer).trans confirms
      rw [Call.confirmed_append, own]
      exact Call.confirmed_own middle other reply
    have listed : Announces [] c middle := (Announces.dispatch c _).after tokensListed
    have offered : Announces [] middle last := (Announces.dispatch middle _).after applicationsListed
    exact nothing ▸ (listed.after offered).andThen (.offerApplications last applications)

/-- A call made of the console tells what the backend confirmed in it. -/
theorem announces_call (reply : List Exchange → Rest.Request → Rest.Reply) (d : Desk (List Exchange)) (call : Call) :
    ∃ made, (d.call (prompt reply) call).backend = d.backend ++ made ∧
      Announces (call.confirmed made) d.console (d.call (prompt reply) call).console := by
  obtain ⟨made, noted, h⟩ := Desk.made_call reply d call
  have begins := begins d.console call
  exact ⟨made, noted, begins.announces.after (announces_made h begins.awaits)⟩

/-! ### Runs -/

def Event.confirms : Event → List Success
  | .answered p reply => p.confirms reply
  | .called _ => []

/-- What has been confirmed and waits to be told. -/
def Desk.owed (d : Desk Unit) : List Success := d.inFlight.flatMap fun x => x.2.owes

theorem Announces.dispatchAll (os : List Rest.Operation) : ∀ c : Console, Announces [] c (c.dispatchAll os) := by
  induction os with
  | nil => exact .refl
  | cons o os ih => exact fun c => (Announces.dispatch c o).after (ih _)

theorem owes_numbered (n : Nat) (ps : List Purpose) :
    (numbered n ps).flatMap (fun x => x.2.owes) = ps.flatMap Purpose.owes := by
  have purposes := congrArg (List.flatMap Purpose.owes) (snd_numbered n ps)
  rwa [List.flatMap_map] at purposes

variable {admits : Desk Unit → Call → Prop} {first : Console} {d : Desk Unit} {es : List Event}

/-- In a run, what the replies confirmed has been told or is owed by a listing in flight, each of it once. -/
theorem Reached.announces (h : Reached admits first d es) :
    ∃ told, Announces told first d.console ∧ (told ++ d.owed).Perm (es.flatMap Event.confirms) := by
  induction h with
  | start => exact ⟨[], .refl first, .nil⟩
  | @call d es c h _ ih =>
    obtain ⟨told, ht, settled⟩ := ih
    have begins := begins d.console c
    refine ⟨told, ?_, ?_⟩
    · rw [Desk.console_call]
      exact (ht.andThen begins.announces).andThen (.dispatchAll _ _)
    · have owed : (d.call silent c).owed = d.owed := by
        have nothing : (d.console.begin c).2.purposes.flatMap Purpose.owes = [] :=
          List.flatMap_eq_nil_iff.mpr fun p hp => (begins.awaits p hp).2
        rw [Desk.owed, Desk.inFlight_call, List.flatMap_append, owes_numbered, nothing, List.append_nil]
        rfl
      rw [owed, List.flatMap_append]
      exact settled.trans (.of_eq (List.append_nil _).symm)
  | @reply d es ticket p h hp reply ih =>
    obtain ⟨told, ht, settled⟩ := ih
    obtain ⟨as, bs, hf⟩ := List.append_of_mem hp
    obtain ⟨answers, inFlight, -⟩ := Desk.deliver_awaited h.tidy hf reply
    obtain ⟨applications, answered⟩ := answers.console
    obtain ⟨now, hn, moved⟩ := (settles_answer d.console p reply).told
    refine ⟨told ++ now, ?_, ?_⟩
    · rw [answered]
      exact ((ht.trans hn).andThen (.dispatchAll _ _)).andThen (.offerApplications _ _)
    · have followUp := owes_numbered d.sent ((d.console.answer p reply).2.toList.map Purpose.ending)
      rw [List.flatMap_map] at followUp
      rw [Desk.owed, hf] at settled
      rw [Desk.owed, inFlight]
      refine List.perm_iff_count.mpr fun s => ?_
      have moved := congrArg (List.count s) moved
      have settled := List.perm_iff_count.mp settled s
      simp only [Desk.followUp, followUp, List.flatMap_append, List.flatMap_cons, List.flatMap_nil, List.count_append,
        List.count_nil, Event.confirms] at moved settled ⊢
      omega

/-! ### What is told -/

/-- A watched view that is refreshed tells of nothing, whenever the reply to it arrives. -/
theorem announces_refresh (c : Console) (view : Watched) : Announces [] c (c.refresh view).1 ∧
    ∀ (c' : Console) (reply : Rest.Reply), Announces [] c' (c'.conclude (c.refresh view).2 reply) := by
  have listing {e : Ending} (none : (Purpose.ending e).success? = none) (owes : (Purpose.ending e).owes = [])
      (c' : Console) (reply : Rest.Reply) : Announces [] c' (c'.conclude e reply) := by
    have concluded := announces_conclude c' e reply
    rwa [owes, Purpose.confirms_of_none none] at concluded
  cases view with
  | servers | clients => exact ⟨.of_happen rfl rfl rfl rfl, listing rfl rfl⟩
  | machines =>
    rw [refresh, refreshMachines]
    split <;> exact ⟨.of_happen rfl rfl rfl rfl, listing rfl rfl⟩

theorem url?_saved (mount : String) (release : Release) :
    Success.saved.url? (.console mount release) = some "/config/edumfaserver/list" := by
  rfl

/-- A success is told exactly when the backend has confirmed it, and once. A call that goes through to its end tells
    what was confirmed in it; where calls and replies come in any order, what the replies confirmed has been told, or
    waits for a listing in flight; and a watched view tells of nothing. The list that a save leads to has a URL. -/
theorem successes_told :
    (∀ (reply : List Exchange → Rest.Request → Rest.Reply) (d : Desk (List Exchange)) (call : Call), ∃ made,
      (d.call (prompt reply) call).backend = d.backend ++ made ∧
        Announces (call.confirmed made) d.console (d.call (prompt reply) call).console) ∧
    (∀ {admits : Desk Unit → Call → Prop} {first : Console} {d : Desk Unit} {es : List Event},
      Reached admits first d es →
        ∃ told, Announces told first d.console ∧ (told ++ d.owed).Perm (es.flatMap Event.confirms)) ∧
    (∀ (c : Console) (view : Watched), Announces [] c (c.refresh view).1 ∧
      ∀ (c' : Console) (reply : Rest.Reply), Announces [] c' (c'.conclude (c.refresh view).2 reply)) ∧
    ∀ (mount : String) (release : Release),
      Success.saved.url? (.console mount release) = some "/config/edumfaserver/list" :=
  ⟨announces_call, Reached.announces, announces_refresh, url?_saved⟩

def completeForm : Wire.ServerForm := { Wire.ServerForm.blank with identifier := "a", url := "https://a" }

/-- A save is confirmed and told, although the listing after it gets no answer. -/
theorem successes_told_unlisted : ∃ (d : Desk Unit) (saved : Option (Wire.Envelope Json)),
    Reached anyTime (.mounted "" ⟨"1.0"⟩ "en" none) d
      [.called (.setServerForm completeForm), .called .saveServer,
        .answered (.writing (.saveServer completeForm)) (carriedOut .null),
        .answered (.ending (.serverList none saved)) (.error (.transport "down"))] ∧
      d.console.informed = [savedMessage] ∧ d.console.visited = ["/config/edumfaserver/list"] := by
  have filled : Reached anyTime (.mounted "" ⟨"1.0"⟩ "en" none) _ _ :=
    .call (c := .setServerForm completeForm) .start trivial
  have asked := filled.call (c := .saveServer) trivial
  have answered := asked.reply (.head _) (carriedOut .null)
  have unlisted := answered.reply (.head _) (.error (.transport "down"))
  obtain ⟨told, announces, settled⟩ := successes_told.2.1 unlisted
  have once : told ++ [] = [.saved] := List.perm_singleton.mp settled
  obtain rfl : told = [.saved] := (List.append_nil told).symm.trans once
  exact ⟨_, _, unlisted, announces.informed, announces.visited⟩

end Console
end MfaConsole
