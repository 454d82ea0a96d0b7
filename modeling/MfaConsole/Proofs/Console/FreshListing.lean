import Mathlib.Data.List.DropRight
import MfaConsole.Proofs.Console.ServersEffect

/-! What the list view of the definitions shows where it opens without listing them. A save that was carried out marks
    the listing that followed it as fresh, whatever came of that listing. -/

namespace MfaConsole
namespace Console

/-- The backend has answered a change of a definition. -/
def Event.isChange : Event → Bool
  | .answered (.writing w) reply => !w.isOfTokens && w.isAnswered reply
  | _ => false

def Event.definitions? : Event → Option (Outcome (KeyMap Wire.ServerDefinition))
  | .answered (.ending (.serverList _ _)) reply => some (Rest.Operation.servers.outcome reply)
  | _ => none

/-- What came of the requests for the definitions, in order. -/
def definitions (es : List Event) : List (Outcome (KeyMap Wire.ServerDefinition)) := es.filterMap Event.definitions?

/-- What has happened since the backend last answered a change of a definition. -/
def sinceChange (es : List Event) : List Event := es.rtakeWhile fun e => !e.isChange

/-- The definitions shown are those of a listing that arrived after the last change that was answered. -/
def ShowsChange (v : ServersView) (es : List Event) : Prop :=
  ∃ e, .ok e ∈ definitions (sinceChange es) ∧ v.servers = e.value.getD KeyMap.empty

theorem definitions_append (es fs : List Event) : definitions (es ++ fs) = definitions es ++ definitions fs :=
  List.filterMap_append

theorem definitions_sinceChange_of_isChange (es : List Event) {e : Event} (h : e.isChange = true) :
    definitions (sinceChange (es ++ [e])) = [] := by
  rw [sinceChange, List.rtakeWhile_concat_neg _ _ _ (by simp [h])]
  rfl

theorem definitions_sinceChange (es : List Event) {e : Event} (h : e.isChange = false) :
    definitions (sinceChange (es ++ [e])) = definitions (sinceChange es) ++ e.definitions?.toList := by
  rw [sinceChange, List.rtakeWhile_concat_pos _ _ _ (by simp [h]), definitions_append]
  cases hd : e.definitions? <;> simp [definitions, hd, sinceChange]

/-- What freshness says of the listings since the last change, which came to `listings` so far. -/
structure FreshAfterSave (v : ServersView) (waiting : InFlight)
    (listings : List (Outcome (KeyMap Wire.ServerDefinition))) : Prop where
  /-- There was one, and it is shown if the definitions came. -/
  shown : v.fresh = true → ∃ o, listings = [o] ∧ ∀ e, o = .ok e → v.servers = e.value.getD KeyMap.empty
  /-- None is under way. -/
  idle : v.fresh = true → ∀ x ∈ waiting, ∀ load saved, x.2 ≠ .ending (.serverList load saved)
  /-- There was none yet where a save waits for one. -/
  awaited : ∀ x ∈ waiting, ∀ load e, x.2 = .ending (.serverList load (some e)) → listings = []

namespace FreshAfterSave
variable {d : Desk Unit} {es : List Event} {v : ServersView} {waiting : InFlight}
  {listings : List (Outcome (KeyMap Wire.ServerDefinition))}

theorem mono (h : FreshAfterSave v waiting listings) {fewer : InFlight}
    (hw : ∀ x ∈ fewer, ∀ load saved, x.2 = .ending (.serverList load saved) → x ∈ waiting) :
    FreshAfterSave v fewer listings :=
  ⟨h.shown, fun hf x hx load saved hs => h.idle hf x (hw x hx load saved hs) load saved hs,
    fun x hx load e hs => h.awaited x (hw x hx load _ hs) load e hs⟩

theorem of_idle (hi : ∀ x ∈ waiting, ∀ load saved, x.2 ≠ .ending (.serverList load saved))
    (hs : v.fresh = true → ∃ o, listings = [o] ∧ ∀ e, o = .ok e → v.servers = e.value.getD KeyMap.empty) :
    FreshAfterSave v waiting listings :=
  ⟨hs, fun _ => hi, fun x hx load e he => absurd he (hi x hx load (some e))⟩

theorem called (h : FreshAfterSave v [] listings) (c : Console) (hv : c.servers = v) (call : Call) (n : Nat) :
    FreshAfterSave (c.begin call).1.servers (numbered n (c.begin call).2.purposes) listings := by
  refine ⟨fun hf => ?_, fun hf x hx load saved hs => ?_, fun x hx load e hs => ?_⟩
  · rw [servers_begin, hv] at hf ⊢
    obtain ⟨before, kept⟩ := fresh_called hf
    rw [kept]
    exact h.shown before
  · rw [(serverList_begin c (hs ▸ mem_of_mem_numbered hx)).2.2] at hf
    cases hf
  · exact absurd (serverList_begin c (hs ▸ mem_of_mem_numbered hx)).1 (by simp)

end FreshAfterSave

/-! ### Replies -/

section Replies
variable {d : Desk Unit} {es : List Event} {p : Purpose} {as bs : InFlight} {ticket : Nat} {reply : Rest.Reply}

abbrev FreshDesk (d : Desk Unit) (es : List Event) : Prop :=
  FreshAfterSave d.console.servers d.inFlight (definitions (sinceChange es))

theorem definitions?_of_view (hv : p.view ≠ some .servers) (reply : Rest.Reply) :
    (Event.answered p reply).isChange = false ∧ (Event.answered p reply).definitions? = none := by
  cases p with
  | applications => exact ⟨rfl, rfl⟩
  | ending e =>
    cases e with
    | serverList => exact absurd rfl hv
    | _ => exact ⟨rfl, rfl⟩
  | writing w =>
    refine ⟨?_, rfl⟩
    cases hw : w.isOfTokens with
    | true => simp [Event.isChange, hw]
    | false => exact absurd (by simp [Purpose.view, hw]) hv

theorem freshDesk_of_other (h : FreshDesk d es) (hv : p.view ≠ some .servers)
    (hf : d.inFlight = as ++ (ticket, p) :: bs) :
    FreshAfterSave (d.console.answer p reply).1.servers (as ++ d.followUp p reply ++ bs)
      (definitions (sinceChange (es ++ [.answered p reply]))) := by
  obtain ⟨noChange, noListing⟩ := definitions?_of_view hv reply
  rw [definitions_sinceChange es noChange, noListing, Option.toList_none, List.append_nil,
    (keeps_answer d.console p reply).servers hv]
  refine h.mono fun x hx load saved hs => ?_
  simp only [List.mem_append] at hx
  rcases hx with (hx | hx) | hx
  · exact hf ▸ List.mem_append_left _ hx
  · obtain ⟨e, he, hx⟩ := List.mem_map.mp (mem_of_mem_numbered hx)
    have own := view_answer (Option.mem_toList.mp he)
    rw [hx, hs] at own
    exact absurd own.symm hv
  · exact hf ▸ List.mem_append_right _ (List.mem_cons_of_mem _ hx)

/-- A listing of the definitions ends, and is made fresh if a save waited for it. -/
theorem freshDesk_of_serverList (h : FreshDesk d es) {load : Option String} {saved : Option (Wire.Envelope Json)}
    (hp : (ticket, .ending (.serverList load saved)) ∈ d.inFlight) (hr : ∀ x ∈ as ++ bs, x.2.view = none) :
    FreshAfterSave (d.console.answer (.ending (.serverList load saved)) reply).1.servers (as ++ bs)
      (definitions (sinceChange (es ++ [.answered (.ending (.serverList load saved)) reply]))) := by
  refine .of_idle (fun x hx load saved hs => by cases hs ▸ hr x hx) fun hf => ?_
  rw [definitions_sinceChange es rfl]
  rw [servers_answer] at hf ⊢
  rcases fresh_listed hf with stale | ⟨e, rfl⟩
  · exact absurd rfl (h.idle stale _ hp load saved)
  · rw [h.awaited _ hp load e rfl]
    refine ⟨Rest.Operation.servers.outcome reply, rfl, fun e' ho => ?_⟩
    rw [ServersView.answered, ho]
    exact servers_listed_ok _ load _ e'

/-- A change of a definition that was answered is followed by a listing, and one that was not changes nothing. -/
theorem freshDesk_of_writing (h : FreshDesk d es) {w : Writing} (hw : w.isOfTokens = false)
    (hf : d.inFlight = as ++ (ticket, .writing w) :: bs) :
    FreshAfterSave (d.console.answer (.writing w) reply).1.servers (as ++ d.followUp (.writing w) reply ++ bs)
      (definitions (sinceChange (es ++ [.answered (.writing w) reply]))) := by
  cases ha : w.isAnswered reply with
  | true =>
    have stale : (d.console.answer (.writing w) reply).1.servers.fresh = false := by
      rw [servers_answer, ServersView.answered, hw, ha]
      rfl
    rw [definitions_sinceChange_of_isChange es (by simp [Event.isChange, hw, ha])]
    exact ⟨fun hf => absurd hf (by simp [stale]), fun hf => absurd hf (by simp [stale]), fun _ _ _ _ _ => rfl⟩
  | false =>
    have kept : (d.console.answer (.writing w) reply).1.servers = d.console.servers := by
      rw [servers_answer, ServersView.answered, ha, Bool.and_false, if_neg Bool.false_ne_true]
    rw [definitions_sinceChange es (by simp [Event.isChange, ha]), kept, Desk.followUp,
      answer_snd_of_not_isAnswered d.console hw ha]
    have before : FreshAfterSave d.console.servers d.inFlight (definitions (sinceChange es) ++ []) :=
      (List.append_nil (definitions (sinceChange es))).symm ▸ h
    refine before.mono fun x hx load saved hs => ?_
    rw [hf]
    rcases List.mem_append.mp hx with hx | hx
    · exact List.mem_append_left _ ((List.append_nil as) ▸ hx)
    · exact List.mem_append_right _ (List.mem_cons_of_mem _ hx)

end Replies

/-- Where calls are made one by one, freshness says what it should. -/
theorem Reached.freshDesk {setup : Setup} {authorization : Option String} {d : Desk Unit} {es : List Event}
    (h : Reached oneByOne (.start setup authorization) d es) : FreshDesk d es := by
  induction h with
  | start =>
    refine ⟨fun hf => ?_, fun hf => ?_, fun _ hx => absurd hx List.not_mem_nil⟩
    · cases hf
    · cases hf
  | @call d es c h hc ih =>
    have same : definitions (sinceChange (es ++ [.called c])) = definitions (sinceChange es) := by
      rw [definitions_sinceChange es rfl]
      exact List.append_nil _
    rw [FreshDesk, hc] at ih
    rw [FreshDesk, Desk.servers_call, Desk.inFlight_call, hc, same]
    exact ih.called d.console rfl c d.sent
  | @reply d es ticket p h hp reply ih =>
    obtain ⟨as, bs, hf⟩ := List.append_of_mem hp
    obtain ⟨answers, awaited, -⟩ := Desk.deliver_awaited h.tidy hf reply
    rw [FreshDesk, answers.servers, awaited]
    by_cases hv : p.view = some .servers
    · have rest : ∀ x ∈ as ++ bs, x.2.view = none := fun x => h.view_of_mem_rest hf (by simp [hv])
      cases p with
      | applications => cases hv
      | writing w =>
        refine freshDesk_of_writing ih ?_ hf
        rw [Purpose.view] at hv
        exact Bool.eq_false_iff.mpr fun hw => by simp [hw] at hv
      | ending e =>
        cases e with
        | serverList load saved =>
          have none : d.followUp (.ending (.serverList load saved)) reply = [] := rfl
          rw [none, List.append_nil]
          exact freshDesk_of_serverList ih hp rest
        | _ => cases hv
    · exact freshDesk_of_other ih hv hf

/-! ### The list view without a listing -/

variable {setup : Setup} {authorization : Option String} {d : Desk Unit} {es : List Event}

/-- Where calls are made one by one and the list view opens without a request, it shows the definitions as they were
    after the last change that was answered, exactly if the last listing came. -/
theorem showsChange_iff (h : Reached oneByOne (.start setup authorization) d es)
    (hs : (d.call silent .mountServerList).sent = d.sent) :
    ShowsChange (d.call silent .mountServerList).console.servers es ↔
      ∃ e, (definitions es).getLast? = some (.ok e) := by
  have fresh : d.console.servers.fresh = true := by
    rw [← purposes_mountServerList, ← List.length_eq_zero_iff]
    rw [Desk.sent_call] at hs
    omega
  obtain ⟨o, since, shown⟩ := h.freshDesk.shown fresh
  have kept : (d.call silent .mountServerList).console.servers.servers = d.console.servers.servers := by
    rw [Desk.servers_call, servers_begin, ServersView.called, if_pos fresh]
  have last : (definitions es).getLast? = some o := by
    obtain ⟨before, hb⟩ := List.rtakeWhile_suffix (fun e : Event => !e.isChange) es
    rw [← hb, definitions_append, ← sinceChange, since, List.getLast?_concat]
  rw [ShowsChange, since, kept, last]
  constructor
  · rintro ⟨e, he, -⟩
    exact ⟨e, congrArg some (List.mem_singleton.mp he).symm⟩
  · rintro ⟨e, he⟩
    have ho := Option.some.inj he
    exact ⟨e, List.mem_singleton.mpr ho.symm, shown e ho⟩

def filledForm : Wire.ServerForm := { Wire.ServerForm.blank with identifier := "x", url := "https://x" }

/-- After a save whose listing came, the list view shows the listing. -/
theorem showsChange_after_save : ∃ (d : Desk Unit) (es : List Event),
    Reached oneByOne (.start .bare none) d es ∧ (d.call silent .mountServerList).sent = d.sent ∧
      ShowsChange (d.call silent .mountServerList).console.servers es := by
  have filled : Reached oneByOne (.start .bare none) _ _ := .call (c := .setServerForm filledForm) .start rfl
  have saving := filled.call (c := .saveServer) rfl
  have saved := saving.reply (.head _) (carriedOut (.integer 1))
  have listed := saved.reply (.head _) (carriedOut (.object []))
  exact ⟨_, _, listed, rfl, (showsChange_iff listed rfl).mpr ⟨_, rfl⟩⟩

/-- After a save whose listing failed, the list view opens without a request and shows no listing made since. -/
theorem exists_mount_not_showsChange : ∃ (d : Desk Unit) (es : List Event),
    Reached oneByOne (.start .bare none) d es ∧ d.inFlight = [] ∧
      (d.call silent .mountServerList).sent = d.sent ∧
      ¬ShowsChange (d.call silent .mountServerList).console.servers es := by
  have filled : Reached oneByOne (.start .bare none) _ _ := .call (c := .setServerForm filledForm) .start rfl
  have saving := filled.call (c := .saveServer) rfl
  have saved := saving.reply (.head _) (carriedOut (.integer 1))
  refine ⟨_, _, saved.reply (.head _) (.error (.transport "down")), rfl, rfl, ?_⟩
  rintro ⟨e, he, -⟩
  cases List.mem_singleton.mp he

end Console
end MfaConsole
