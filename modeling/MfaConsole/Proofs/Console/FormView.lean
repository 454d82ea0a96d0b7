import Mathlib.Data.List.Induction
import MfaConsole.Proofs.Console.ServersEffect

/-! Whose definition the edit form shows. Opening the form blanks it, and where it is opened for a definition, the
    definitions are listed and the one asked for is filled in. Such a listing may arrive after the form has been opened
    again, and fills it all the same. -/

namespace MfaConsole
namespace Console

/-! ### The form as the events tell it -/

/-- A definition with its identifier, to be filled into the form. -/
abbrev Loaded := String × Wire.ServerDefinition

def Loaded.ofOutcome? (load : Option String) : Outcome (KeyMap Wire.ServerDefinition) → Option Loaded
  | .ok e => load.bind fun identifier =>
    ((e.value.getD KeyMap.empty).get? identifier).map fun definition => (identifier, definition)
  | .error _ => none

/-- The definition that an event fills into the form. -/
def Event.loaded? : Event → Option Loaded
  | .answered (.ending (.serverList load _)) reply => Loaded.ofOutcome? load (Rest.Operation.servers.outcome reply)
  | _ => none

def Event.opensForm : Event → Bool
  | .called (.mountServerForm _) => true
  | _ => false

/-- The identifier that the form is said to belong to, and what it shows. -/
abbrev Form := Option String × Wire.ServerForm

def ServersView.shownForm (v : ServersView) : Form := (v.editing, v.form)

def Form.next (f : Form) : Event → Form
  | .called (.mountServerForm identifier) => (identifier, .blank)
  | .called (.setServerForm form) => (f.1, form)
  | e => e.loaded?.elim f fun l => (some l.1, .ofDefinition l.1 l.2)

theorem Form.next_answered (f : Form) (p : Purpose) (reply : Rest.Reply) :
    f.next (.answered p reply) =
      (Event.answered p reply).loaded?.elim f fun l => (some l.1, .ofDefinition l.1 l.2) := rfl

theorem shownForm_called (v : ServersView) (c : Call) : (v.called c).shownForm = v.shownForm.next (.called c) := by
  cases c with
  | mountServerList =>
    rw [ServersView.called]
    split <;> rfl
  | mountServerForm identifier => cases identifier <;> rfl
  | _ => rfl

theorem shownForm_endList (v : ServersView) (load : Option String)
    (outcome : Outcome (KeyMap Wire.ServerDefinition)) : (v.endList load outcome).shownForm =
      (Loaded.ofOutcome? load outcome).elim v.shownForm fun l => (some l.1, .ofDefinition l.1 l.2) := by
  cases outcome with
  | error f => rfl
  | ok e =>
    cases load with
    | none => rfl
    | some identifier =>
      rw [ServersView.endList, Option.elim_some, ServersView.loadForm, Loaded.ofOutcome?, Option.bind_some]
      cases (e.value.getD KeyMap.empty).get? identifier <;> rfl

theorem shownForm_listed (v : ServersView) (load : Option String) (saved : Option (Wire.Envelope Json))
    (outcome : Outcome (KeyMap Wire.ServerDefinition)) :
    (v.listed load saved outcome).shownForm = (v.endList load outcome).shownForm := by
  rw [ServersView.listed]
  split <;> rfl

theorem shownForm_answered (v : ServersView) (p : Purpose) (reply : Rest.Reply) :
    (v.answered p reply).shownForm = v.shownForm.next (.answered p reply) := by
  cases p with
  | applications => rfl
  | writing w =>
    rw [ServersView.answered]
    split <;> rfl
  | ending e =>
    cases e with
    | serverList load saved =>
      exact (shownForm_listed v load saved _).trans (shownForm_endList v load _)
    | _ => rfl

variable {admits : Desk Unit → Call → Prop} {setup : Setup} {authorization : Option String} {d : Desk Unit}
  {es : List Event}

theorem Reached.shownForm (h : Reached admits (.start setup authorization) d es) :
    d.console.servers.shownForm = es.foldl Form.next (none, .blank) := by
  induction h with
  | start => rfl
  | @call d es c _ _ ih =>
    rw [Desk.servers_call, servers_begin, shownForm_called, ih, List.foldl_append]
    rfl
  | @reply d es ticket p h hp reply ih =>
    obtain ⟨as, bs, hf⟩ := List.append_of_mem hp
    rw [(Desk.deliver_awaited h.tidy hf reply).1.servers, servers_answer, shownForm_answered, ih, List.foldl_append]
    rfl

theorem Reached.shownForm_concat {d' : Desk Unit} {e : Event} (h : Reached admits (.start setup authorization) d es)
    (h' : Reached admits (.start setup authorization) d' (es ++ [e])) :
    d'.console.servers.shownForm = d.console.servers.shownForm.next e := by
  rw [h'.shownForm, h.shownForm, List.foldl_append]
  rfl

/-- Each moment of a run was reached. -/
theorem Reached.exists_of_prefix {first : Console} (h : Reached admits first d es) {past : List Event}
    (hp : past <+: es) : ∃ d', Reached admits first d' past := by
  induction h with
  | start =>
    obtain rfl := List.prefix_nil.mp hp
    exact ⟨_, .start⟩
  | call h hc ih =>
    rcases List.prefix_concat_iff.mp hp with rfl | hp
    · exact ⟨_, h.call hc⟩
    · exact ih hp
  | reply h hm reply ih =>
    rcases List.prefix_concat_iff.mp hp with rfl | hp
    · exact ⟨_, h.reply hm reply⟩
    · exact ih hp

/-! ### Forms that stay with their view -/

/-- From the time when a view opened the form, with `opened` the events up to then, to the end of the run: the form is
    said to belong to what it was opened for, and a reply that changed it filled in the definition of that name. -/
structure StaysWith (admits : Desk Unit → Call → Prop) (first : Console) (opened es : List Event)
    (identifier : Option String) : Prop where
  editing : ∀ d past, Reached admits first d past → opened <+: past → past <+: es →
    d.console.servers.editing = identifier
  filled : ∀ d d' past p reply, Reached admits first d past →
    Reached admits first d' (past ++ [.answered p reply]) → opened <+: past → past ++ [.answered p reply] <+: es →
    d'.console.servers.form ≠ d.console.servers.form → ∃ own definition, identifier = some own ∧
      (Event.answered p reply).loaded? = some (own, definition) ∧
      d'.console.servers.form = .ofDefinition own definition

theorem next_of_loaded? {e : Event} {l : Loaded} (h : e.loaded? = some l) (f : Form) :
    f.next e = (some l.1, .ofDefinition l.1 l.2) := by
  cases e with
  | called c => cases h
  | answered p reply =>
    rw [Form.next_answered, h]
    rfl

theorem next_of_not_loaded? {e : Event} (h : e.loaded? = none) (opens : e.opensForm = false) (f : Form) :
    (f.next e).1 = f.1 := by
  cases e with
  | answered p reply =>
    rw [Form.next_answered, h]
    rfl
  | called c =>
    cases c with
    | mountServerForm => cases opens
    | _ => rfl

theorem editing_foldl {identifier : Option String} {f : Form} (hf : f.1 = identifier) {since : List Event}
    (last : ∀ e ∈ since, e.opensForm = false) (own : ∀ e ∈ since, ∀ l, e.loaded? = some l → identifier = some l.1) :
    (since.foldl Form.next f).1 = identifier := by
  induction since using List.reverseRecOn with
  | nil => exact hf
  | append_singleton since e ih =>
    have before := ih (fun x hx => last x (List.mem_append_left _ hx)) fun x hx => own x (List.mem_append_left _ hx)
    have here : e ∈ since ++ [e] := List.mem_append_right _ List.mem_cons_self
    rw [List.foldl_append, List.foldl_cons, List.foldl_nil]
    cases hl : e.loaded? with
    | none => rw [next_of_not_loaded? hl (last e here), before]
    | some l => rw [next_of_loaded? hl, own e here l hl]

theorem Reached.shownForm_since {before since : List Event} {identifier : Option String}
    (h : Reached admits (.start setup authorization) d (before ++ [.called (.mountServerForm identifier)] ++ since)) :
    d.console.servers.shownForm = since.foldl Form.next (identifier, .blank) := by
  rw [h.shownForm, List.foldl_append, List.foldl_append]
  rfl

/-- A reply that changes the form fills in a definition. -/
theorem Reached.exists_loaded? {d' : Desk Unit} {p : Purpose} {reply : Rest.Reply}
    (h : Reached admits (.start setup authorization) d es)
    (h' : Reached admits (.start setup authorization) d' (es ++ [.answered p reply]))
    (changed : d'.console.servers.form ≠ d.console.servers.form) :
    ∃ l, (Event.answered p reply).loaded? = some l ∧ d'.console.servers.form = .ofDefinition l.1 l.2 := by
  have moved := congrArg Prod.snd (h.shownForm_concat h')
  cases hl : (Event.answered p reply).loaded? with
  | none =>
    rw [Form.next_answered, hl] at moved
    exact absurd moved changed
  | some l =>
    rw [next_of_loaded? hl] at moved
    exact ⟨l, rfl, moved⟩

/-- The form stays with the view that opened it last exactly if no reply since then fills in the definition of another
    identifier. -/
theorem staysWith_iff {before since : List Event} {identifier : Option String}
    (h : Reached admits (.start setup authorization) d es)
    (opened : es = before ++ .called (.mountServerForm identifier) :: since)
    (last : ∀ e ∈ since, e.opensForm = false) :
    StaysWith admits (.start setup authorization) (before ++ [.called (.mountServerForm identifier)]) es identifier ↔
      ∀ e ∈ since, ∀ l, e.loaded? = some l → identifier = some l.1 := by
  have whole : es = (before ++ [.called (.mountServerForm identifier)]) ++ since := by
    rw [opened, List.append_assoc, List.singleton_append]
  constructor
  · intro stays e he l hl
    obtain ⟨earlier, later, rfl⟩ := List.append_of_mem he
    -- The moment after the reply is part of the run, and the form must belong to its view even then.
    have moment : (before ++ [.called (.mountServerForm identifier)]) ++ (earlier ++ [e]) <+: es :=
      ⟨later, by rw [whole]; simp⟩
    obtain ⟨d', h'⟩ := h.exists_of_prefix moment
    have belongs := stays.editing d' _ h' (List.prefix_append _ _) moment
    have shown := congrArg Prod.fst h'.shownForm_since
    rw [List.foldl_append, List.foldl_cons, List.foldl_nil, next_of_loaded? hl] at shown
    exact belongs.symm.trans shown
  · intro own
    refine ⟨?_, ?_⟩
    · rintro d' _ h' ⟨earlier, rfl⟩ ⟨later, cut⟩
      rw [whole, List.append_assoc] at cut
      obtain rfl := List.append_cancel_left cut
      have shown := congrArg Prod.fst h'.shownForm_since
      exact shown.trans (editing_foldl rfl (fun e he => last e (List.mem_append_left _ he))
        fun e he => own e (List.mem_append_left _ he))
    · rintro d' d'' _ p reply h' h'' ⟨earlier, rfl⟩ ⟨later, cut⟩ changed
      obtain ⟨l, hl, filled⟩ := h'.exists_loaded? h'' changed
      rw [whole, List.append_assoc, List.append_assoc] at cut
      have here : Event.answered p reply ∈ since := by
        rw [← List.append_cancel_left cut]
        simp
      exact ⟨l.1, l.2, own _ here l hl, hl, filled⟩

/-- Only a form that opens asks for a definition to be filled in. -/
def formsFill (_ : Desk Unit) (c : Call) : Prop := ∀ identifier, c ≠ .listServers (some identifier)

def oneDefinition : Rest.Reply := carriedOut (.object [("a", .object [("url", .string "https://a")])])

/-- The listing that a form asked for fills it in. -/
theorem staysWith_filled : ∃ (d : Desk Unit) (es : List Event), Reached formsFill (.start .bare none) d es ∧
    d.console.servers.form.url = "https://a" ∧
      StaysWith formsFill (.start .bare none) [.called (.mountServerForm (some "a"))] es (some "a") := by
  have opened : Reached formsFill (.start .bare none) _ _ :=
    .call (c := .mountServerForm (some "a")) .start fun _ h => by cases h
  have listed := opened.reply (.head _) oneDefinition
  refine ⟨_, _, listed, rfl, (staysWith_iff listed (List.nil_append _).symm ?_).mpr ?_⟩
  · intro e he
    cases List.mem_singleton.mp he
    rfl
  · intro e he l hl
    cases List.mem_singleton.mp he
    exact congrArg (fun l => some l.1) (Option.some.inj hl)

/-- The form is opened for a definition and then for a new one, before the listing asked for the first time arrives. -/
theorem exists_form_not_staysWith : ∃ (d : Desk Unit) (before since : List Event),
    Reached formsFill (.start .bare none) d (before ++ .called (.mountServerForm none) :: since) ∧
      (∀ e ∈ since, e.opensForm = false) ∧ d.console.servers.editing = some "a" ∧
      ¬StaysWith formsFill (.start .bare none) (before ++ [.called (.mountServerForm none)])
        (before ++ .called (.mountServerForm none) :: since) none := by
  have opened : Reached formsFill (.start .bare none) _ _ :=
    .call (c := .mountServerForm (some "a")) .start fun _ h => by cases h
  have again := opened.call (c := .mountServerForm none) fun _ h => by cases h
  have listed := again.reply (.head _) oneDefinition
  refine ⟨_, [.called (.mountServerForm (some "a"))], [_], listed, ?_, rfl, fun stays => ?_⟩
  · intro e he
    cases List.mem_singleton.mp he
    rfl
  · have same := stays.editing _ _ listed (List.prefix_append _ _) (List.prefix_refl _)
    cases same

/-! ### Forms opened in quiet -/

/-- Forms are opened only when no listing is under way that fills one in, and only they ask for such listings. -/
structure FormInQuiet (d : Desk Unit) (c : Call) : Prop where
  fill : formsFill d c
  quiet : (∃ identifier, c = .mountServerForm identifier) →
    ∀ x ∈ d.inFlight, ∀ identifier saved, x.2 ≠ .ending (.serverList (some identifier) saved)

def Event.openedFor (current : Option String) : Event → Option String
  | .called (.mountServerForm identifier) => identifier
  | _ => current

/-- What the form was opened for last. -/
def openedFor (es : List Event) : Option String := es.foldl Event.openedFor none

theorem openedFor_concat (es : List Event) (e : Event) : openedFor (es ++ [e]) = Event.openedFor (openedFor es) e := by
  rw [openedFor, List.foldl_append]
  rfl

theorem openedFor_of_not_opensForm {e : Event} (h : e.opensForm = false) (current : Option String) :
    Event.openedFor current e = current := by
  cases e with
  | answered p reply => rfl
  | called c =>
    cases c with
    | mountServerForm => cases h
    | _ => rfl

/-- Only a form opened for a definition, or a call for that very purpose, asks for a listing that fills it in. -/
theorem filling_begin {c : Console} {call : Call} {identifier : String} {saved : Option (Wire.Envelope Json)}
    (h : .ending (.serverList (some identifier) saved) ∈ (c.begin call).2.purposes) :
    call = .mountServerForm (some identifier) ∨ call = .listServers (some identifier) := by
  obtain ⟨-, fills, -⟩ := serverList_begin c h
  cases call with
  | mountServerForm => exact Or.inl (congrArg Call.mountServerForm fills.symm)
  | listServers => exact Or.inr (congrArg Call.listServers fills.symm)
  | _ => cases fills

/-- The listing that follows a change fills in no form. -/
theorem not_filling_answer {c : Console} {p : Purpose} {reply : Rest.Reply} {identifier : String}
    {saved : Option (Wire.Envelope Json)} : (c.answer p reply).2 ≠ some (.serverList (some identifier) saved) := by
  intro h
  cases p with
  | ending | applications => cases h
  | writing w =>
    have own := view_answer h
    cases hw : w.isOfTokens with
    | true =>
      rw [Purpose.view, Purpose.view, hw] at own
      cases own
    | false =>
      rw [answer] at h
      obtain ⟨c', -, ⟨-, eq⟩ | ⟨-, kept, eq⟩⟩ := proceed_of_not_isOfTokens c hw reply
      · rw [eq] at h
        cases h
      · rw [eq] at h
        cases h

/-- Where forms are opened in quiet, the listings under way that fill one in are for the form opened last. -/
theorem eq_openedFor_of_filling (h : Reached FormInQuiet (.start setup authorization) d es) :
    ∀ x ∈ d.inFlight, ∀ identifier saved, x.2 = .ending (.serverList (some identifier) saved) →
      openedFor es = some identifier := by
  induction h with
  | start => exact fun x hx => absurd hx List.not_mem_nil
  | @call d es c h hc ih =>
    intro x hx identifier saved hp
    rw [openedFor_concat]
    rw [Desk.inFlight_call] at hx
    rcases List.mem_append.mp hx with hx | hx
    · have open? : (Event.called c).opensForm = false := by
        cases c with
        | mountServerForm other => exact absurd hp (hc.quiet ⟨other, rfl⟩ x ‹x ∈ d.inFlight› identifier saved)
        | _ => rfl
      rw [openedFor_of_not_opensForm open?]
      exact ih x hx identifier saved hp
    · rcases filling_begin (hp ▸ mem_of_mem_numbered hx) with rfl | rfl
      · rfl
      · exact absurd rfl (hc.fill identifier)
  | @reply d es ticket p h hp reply ih =>
    intro x hx identifier saved hx'
    obtain ⟨as, bs, hf⟩ := List.append_of_mem hp
    rw [openedFor_concat, openedFor_of_not_opensForm (e := .answered p reply) rfl]
    rw [(Desk.deliver_awaited h.tidy hf reply).2.1] at hx
    simp only [List.mem_append] at hx
    rcases hx with (hx | hx) | hx
    · exact ih x (hf ▸ List.mem_append_left _ hx) identifier saved hx'
    · obtain ⟨e, he, hx⟩ := List.mem_map.mp (mem_of_mem_numbered hx)
      cases hx.trans hx'
      exact absurd (Option.mem_toList.mp he) not_filling_answer
    · exact ih x (hf ▸ List.mem_append_right _ (List.mem_cons_of_mem _ hx)) identifier saved hx'

theorem openedFor_since {before : List Event} {identifier : Option String} {since : List Event}
    (last : ∀ e ∈ since, e.opensForm = false) :
    openedFor (before ++ .called (.mountServerForm identifier) :: since) = identifier := by
  induction since using List.reverseRecOn with
  | nil => exact openedFor_concat _ _
  | append_singleton since e ih =>
    have here : e ∈ since ++ [e] := List.mem_append_right _ List.mem_cons_self
    rw [← List.cons_append, ← List.append_assoc, openedFor_concat, openedFor_of_not_opensForm (last e here)]
    exact ih fun x hx => last x (List.mem_append_left _ hx)

theorem load_of_loaded? {e : Event} {l : Loaded} (h : e.loaded? = some l) :
    ∃ saved reply, e = .answered (.ending (.serverList (some l.1) saved)) reply := by
  rw [Event.loaded?.eq_def] at h
  split at h
  · next load saved reply =>
    cases ho : Rest.Operation.servers.outcome reply with
    | error f =>
      rw [ho] at h
      cases h
    | ok e =>
      rw [ho] at h
      obtain ⟨identifier, rfl, found⟩ := Option.bind_eq_some_iff.mp h
      obtain ⟨definition, -, rfl⟩ := Option.map_eq_some_iff.mp found
      exact ⟨saved, reply, rfl⟩
  · cases h

theorem Reached.exists_of_answered {first : Console} {p : Purpose} {reply : Rest.Reply}
    (h : Reached admits first d (es ++ [.answered p reply])) :
    ∃ d' ticket, Reached admits first d' es ∧ (ticket, p) ∈ d'.inFlight := by
  generalize hx : es ++ [.answered p reply] = all at h
  cases h with
  | start => simp at hx
  | call h hc =>
    cases (List.append_inj' hx rfl).2
  | @reply d' past ticket q h hp r =>
    obtain ⟨rfl, same⟩ := List.append_inj' hx rfl
    cases same
    exact ⟨d', ticket, h, hp⟩

/-- Where forms are opened in quiet, each stays with the view that opened it. -/
theorem staysWith_of_formInQuiet {before since : List Event} {identifier : Option String}
    (h : Reached FormInQuiet (.start setup authorization) d es)
    (opened : es = before ++ .called (.mountServerForm identifier) :: since)
    (last : ∀ e ∈ since, e.opensForm = false) :
    StaysWith FormInQuiet (.start setup authorization) (before ++ [.called (.mountServerForm identifier)]) es
      identifier := by
  refine (staysWith_iff h opened last).mpr fun e he l hl => ?_
  obtain ⟨earlier, later, rfl⟩ := List.append_of_mem he
  obtain ⟨saved, reply, rfl⟩ := load_of_loaded? hl
  have moment : (before ++ .called (.mountServerForm identifier) :: earlier) ++
      [.answered (.ending (.serverList (some l.1) saved)) reply] <+: es := ⟨later, by rw [opened]; simp⟩
  obtain ⟨d', h'⟩ := h.exists_of_prefix moment
  -- The listing was still in flight just before its reply, so it was asked for by the form opened last.
  obtain ⟨d'', ticket, h'', hp⟩ := h'.exists_of_answered
  rw [← eq_openedFor_of_filling h'' _ hp l.1 saved rfl]
  exact (openedFor_since fun e he => last e (List.mem_append_left _ he)).symm

end Console
end MfaConsole
