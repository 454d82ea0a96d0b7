import Mathlib.Data.List.Induction
import MfaConsole.Proofs.Console.MachinesEffect

/-! Whose tokens the details of a machine show. Opening the details clears the tokens, but listings that were asked for
    before may still arrive; the tokens shown are those of the last listing that arrived, whichever machine it was asked
    for. -/

namespace MfaConsole
namespace Console

/-- A listing of tokens that arrived: the filter it was asked for with, and the tokens. -/
abbrev Listing := Wire.TokenFilter × List Wire.AttachedToken

def Listing.ofOutcome? (filter : Wire.TokenFilter) : Outcome Wire.TokenPage → Option Listing
  | .ok e => some (filter, e.value.elim [] Wire.TokenPage.tokens)
  | .error _ => none

/-- The listing of tokens that an event brings, if the reply holds one. -/
def Event.listing? : Event → Option Listing
  | .answered (.ending (.tokenList filter)) reply =>
    Listing.ofOutcome? filter ((Rest.Operation.tokens filter).outcome reply)
  | _ => none

def Listing.next (shown : Option Listing) : Event → Option Listing
  | .called (.showDetails _ _) => none
  | e => e.listing?.or shown

/-- The last listing of tokens that arrived since details were opened, if one did. -/
def shown? (es : List Event) : Option Listing := es.foldl Listing.next none

def choose (chosen : Option (String × String)) : Event → Option (String × String)
  | .called (.showDetails machineId resolver) => some (machineId, resolver)
  | .called (.listMachines _) => none
  | _ => chosen

/-- The machine whose details are open. -/
def chosen? (es : List Event) : Option (String × String) := es.foldl choose none

/-- A token was listed, at some time, in answer to a request for the tokens of a machine. -/
def ListedFor (es : List Event) (machine : String × String) (t : Wire.AttachedToken) : Prop :=
  ∃ e ∈ es, ∃ tokens, e.listing? = some (.ofMachine machine.1 machine.2, tokens) ∧ t ∈ tokens

theorem shown?_concat (es : List Event) (e : Event) : shown? (es ++ [e]) = Listing.next (shown? es) e := by
  rw [shown?, List.foldl_append]
  rfl

theorem chosen?_concat (es : List Event) (e : Event) : chosen? (es ++ [e]) = choose (chosen? es) e := by
  rw [chosen?, List.foldl_append]
  rfl

theorem eq_or_listing?_of_next {shown : Option Listing} {e : Event} {l : Listing}
    (h : Listing.next shown e = some l) : shown = some l ∨ e.listing? = some l := by
  rw [Listing.next.eq_def] at h
  split at h
  · cases h
  · rcases Option.or_eq_some_iff.mp h with h | h
    · exact Or.inr h
    · exact Or.inl h.2

theorem mem_of_shown? {es : List Event} {l : Listing} (h : shown? es = some l) : ∃ e ∈ es, e.listing? = some l := by
  induction es using List.reverseRecOn with
  | nil => cases h
  | append_singleton es e ih =>
    rw [shown?_concat] at h
    rcases eq_or_listing?_of_next h with h | h
    · obtain ⟨e', he, hl⟩ := ih h
      exact ⟨e', List.mem_append_left _ he, hl⟩
    · exact ⟨e, List.mem_append_right _ List.mem_cons_self, h⟩

/-! ### The view as the events tell it -/

theorem selected_called (v : MachinesView) (c : Call) : (v.called c).selected = choose v.selected (.called c) := by
  cases c with
  | refreshTokens =>
    rw [MachinesView.called]
    split <;> rfl
  | refreshMachines =>
    rw [MachinesView.called]
    split
    · rfl
    · next h => exact (Option.not_isSome_iff_eq_none.mp h).symm
  | _ => rfl

theorem tokens_called {v : MachinesView} {shown : Option Listing} (h : v.tokens = shown.elim [] Prod.snd) (c : Call) :
    (v.called c).tokens = (Listing.next shown (.called c)).elim [] Prod.snd := by
  cases c with
  | showDetails => rfl
  | refreshTokens =>
    rw [MachinesView.called]
    split <;> exact h
  | refreshMachines =>
    rw [MachinesView.called]
    split <;> exact h
  | _ => exact h

theorem selected_endList (outcome : Outcome (List Wire.Machine)) (v : MachinesView) :
    (v.endList outcome).selected = v.selected ∧ (v.endList outcome).tokens = v.tokens := by
  cases outcome <;> exact ⟨rfl, rfl⟩

theorem selected_endTokens (outcome : Outcome Wire.TokenPage) (v : MachinesView) :
    (v.endTokens outcome).selected = v.selected := by
  cases outcome <;> rfl

theorem tokens_endTokens {v : MachinesView} {shown : Option Listing} (h : v.tokens = shown.elim [] Prod.snd)
    (filter : Wire.TokenFilter) (outcome : Outcome Wire.TokenPage) :
    (v.endTokens outcome).tokens = ((Listing.ofOutcome? filter outcome).or shown).elim [] Prod.snd := by
  cases outcome with
  | ok e => rfl
  | error f => exact h

theorem selected_answered (v : MachinesView) (p : Purpose) (reply : Rest.Reply) :
    (v.answered p reply).selected = v.selected := by
  cases p with
  | applications => rfl
  | writing w =>
    rw [MachinesView.answered]
    split <;> rfl
  | ending e =>
    cases e with
    | machineList filter => exact (selected_endList _ v).1
    | tokenList filter => exact selected_endTokens _ v
    | _ => rfl

theorem tokens_answered {v : MachinesView} {shown : Option Listing} (h : v.tokens = shown.elim [] Prod.snd)
    (p : Purpose) (reply : Rest.Reply) :
    (v.answered p reply).tokens = (Listing.next shown (.answered p reply)).elim [] Prod.snd := by
  cases p with
  | applications => exact h
  | writing w =>
    rw [MachinesView.answered]
    split <;> exact h
  | ending e =>
    cases e with
    | tokenList filter => exact tokens_endTokens h filter _
    | machineList filter => exact (selected_endList _ v).2.trans h
    | _ => exact h

variable {admits : Desk Unit → Call → Prop} {setup : Setup} {authorization : Option String} {d : Desk Unit}
  {es : List Event} {machine : String × String}

/-- The view of machines at a desk shows what the events tell. -/
theorem Reached.machines (h : Reached admits (.start setup authorization) d es) :
    d.console.machines.selected = chosen? es ∧ d.console.machines.tokens = (shown? es).elim [] Prod.snd := by
  induction h with
  | start => exact ⟨rfl, rfl⟩
  | @call d es c _ _ ih =>
    rw [Desk.machines_call, machines_begin, chosen?_concat, shown?_concat, selected_called, ih.1]
    exact ⟨rfl, tokens_called ih.2 c⟩
  | @reply d es ticket p h hp reply ih =>
    obtain ⟨as, bs, hf⟩ := List.append_of_mem hp
    obtain ⟨applications, hm⟩ := (Desk.deliver_awaited h.tidy hf reply).1.machines
    rw [hm, chosen?_concat, shown?_concat]
    dsimp only
    rw [machines_answer, selected_answered, ih.1]
    exact ⟨rfl, tokens_answered ih.2 p reply⟩

/-! ### Whose tokens are shown -/

theorem listedFor_of_shown? {l : Listing} (h : shown? es = some l) (hf : l.1 = .ofMachine machine.1 machine.2) :
    ∀ t ∈ l.2, ListedFor es machine t := fun t ht => by
  obtain ⟨e, he, hl⟩ := mem_of_shown? h
  exact ⟨e, he, l.2, by rw [hl, ← hf], ht⟩

/-- The tokens shown in the details of a machine are all tokens that were listed for it exactly if this holds of those
    of the last listing that arrived since the details were opened, in case that was asked for another machine. -/
theorem tokens_listedFor_iff (h : Reached anyTime (.start setup authorization) d es) (machine : String × String) :
    (d.console.machines.selected = some machine → ∀ t ∈ d.console.machines.tokens, ListedFor es machine t) ↔
      (chosen? es = some machine → ∀ filter tokens, shown? es = some (filter, tokens) →
        filter ≠ .ofMachine machine.1 machine.2 → ∀ t ∈ tokens, ListedFor es machine t) := by
  rw [h.machines.1, h.machines.2]
  refine imp_congr_right fun _ => ?_
  cases hs : shown? es with
  | none =>
    constructor
    · intro _ _ _ hl
      cases hl
    · intro _ t ht
      cases ht
  | some l =>
    constructor
    · intro all filter tokens hl _
      cases hl
      exact all
    · intro other
      by_cases own : l.1 = .ofMachine machine.1 machine.2
      · exact listedFor_of_shown? hs own
      · exact other l.1 l.2 rfl own

def oneToken : Rest.Reply :=
  carriedOut (.array [.object [("id", .integer 1), ("serial", .string "S"), ("application", .string "ssh")]])

/-- A listing that was asked for the machine whose details are open is shown. -/
theorem tokens_listedFor_once : ∃ (d : Desk Unit) (es : List Event), d.console.machines.selected = some ("A", "r") ∧
    d.console.machines.tokens.length = 1 ∧ ∀ t ∈ d.console.machines.tokens, ListedFor es ("A", "r") t := by
  have opened : Reached anyTime (.start .bare none) _ _ := .call (c := .showDetails "A" "r") .start trivial
  have listed := opened.reply (.head _) oneToken
  refine ⟨_, _, rfl, rfl, (tokens_listedFor_iff listed ("A", "r")).mpr ?_ rfl⟩
  intro _ filter tokens hs other
  exact absurd (congrArg Prod.fst (Option.some.inj hs)).symm other

/-- A listing for one machine arrives after the details of another have been opened, and is shown there. -/
theorem exists_tokens_not_listedFor : ∃ (d : Desk Unit) (es : List Event) (machine : String × String),
    Reached anyTime (.start .bare none) d es ∧ d.console.machines.selected = some machine ∧
      ∃ t ∈ d.console.machines.tokens, ¬ListedFor es machine t := by
  have first : Reached anyTime (.start .bare none) _ _ := .call (c := .showDetails "A" "r") .start trivial
  have second := first.call (c := .showDetails "B" "r") trivial
  have own := second.reply (.tail _ (.tail _ (.head _))) (carriedOut (.array []))
  refine ⟨_, _, ("B", "r"), own.reply (.head _) oneToken, rfl, _, .head _, ?_⟩
  rintro ⟨e, he, tokens, hl, ht⟩
  simp only [List.nil_append, List.cons_append, List.mem_cons, List.not_mem_nil, or_false] at he
  rcases he with rfl | rfl | rfl | rfl
  · cases hl
  · cases hl
  · cases hl
    cases ht
  · have other : Wire.TokenFilter.ofMachine "A" "r" ≠ .ofMachine "B" "r" := by decide
    exact other (congrArg Prod.fst (Option.some.inj hl))

/-! ### Details opened in quiet -/

/-- Details are opened only when no listing of tokens is under way; any other call is admitted at any time. -/
def inQuiet (d : Desk Unit) (c : Call) : Prop :=
  (∃ machineId resolver, c = .showDetails machineId resolver) →
    ∀ x ∈ d.inFlight, ∀ filter, x.2 ≠ .ending (.tokenList filter)

/-- The listings under way and the one shown are those of the machine chosen. -/
structure OwnListings (d : Desk Unit) (es : List Event) (machine : String × String) : Prop where
  asked : ∀ x ∈ d.inFlight, ∀ filter, x.2 = .ending (.tokenList filter) → filter = .ofMachine machine.1 machine.2
  shown : ∀ l, shown? es = some l → l.1 = .ofMachine machine.1 machine.2

theorem eq_showDetails_or_selected {v : MachinesView} {c : Call} (h : (v.called c).selected = some machine) :
    (∃ machineId resolver, c = .showDetails machineId resolver) ∨ v.selected = some machine := by
  rw [selected_called] at h
  cases c with
  | showDetails machineId resolver => exact Or.inl ⟨machineId, resolver, rfl⟩
  | listMachines => cases h
  | _ => exact Or.inr h

theorem next_called {shown : Option Listing} {c : Call} {l : Listing} (h : Listing.next shown (.called c) = some l) :
    shown = some l ∧ ¬∃ machineId resolver, c = .showDetails machineId resolver := by
  cases c with
  | showDetails => cases h
  | _ =>
    refine ⟨h, ?_⟩
    rintro ⟨_, _, hc⟩
    cases hc

theorem filter_of_listing? {p : Purpose} {reply : Rest.Reply} {l : Listing}
    (h : (Event.answered p reply).listing? = some l) : p = .ending (.tokenList l.1) := by
  rw [Event.listing?.eq_def] at h
  split at h
  · next filter _ he =>
    cases he
    cases ho : (Rest.Operation.tokens filter).outcome reply with
    | error f =>
      rw [ho] at h
      cases h
    | ok e =>
      rw [ho] at h
      exact Option.some.inj h ▸ rfl
  · cases h

theorem ownListings (h : Reached inQuiet (.start setup authorization) d es)
    (hm : d.console.machines.selected = some machine) : OwnListings d es machine := by
  induction h generalizing machine with
  | start => cases hm
  | @call d es c h hc ih =>
    rw [Desk.machines_call] at hm
    have before := eq_showDetails_or_selected (machines_begin d.console c ▸ hm)
    refine ⟨fun x hx filter hf => ?_, fun l hl => ?_⟩
    · rw [Desk.inFlight_call] at hx
      rcases List.mem_append.mp hx with hx | hx
      · rcases before with opened | same
        · exact absurd hf (hc opened x hx filter)
        · exact (ih same).asked x hx filter hf
      · obtain ⟨asked, hs, rfl⟩ := asksForChosen_begin d.console (mem_of_mem_numbered hx) filter hf
        rw [Option.some.inj (hs.symm.trans hm)]
    · rw [shown?_concat] at hl
      obtain ⟨hl, closed⟩ := next_called hl
      exact (ih (before.resolve_left closed)).shown l hl
  | @reply d es ticket p h hp reply ih =>
    obtain ⟨as, bs, hf⟩ := List.append_of_mem hp
    obtain ⟨answers, awaited, -⟩ := Desk.deliver_awaited h.tidy hf reply
    obtain ⟨applications, offered⟩ := answers.machines
    rw [offered] at hm
    have same := hm
    rw [machines_answer, selected_answered] at same
    refine ⟨fun x hx filter hfilter => ?_, fun l hl => ?_⟩
    · rw [awaited] at hx
      simp only [List.mem_append] at hx
      rcases hx with (hx | hx) | hx
      · exact (ih same).asked x (hf ▸ List.mem_append_left _ hx) filter hfilter
      · obtain ⟨e, he, hx⟩ := List.mem_map.mp (mem_of_mem_numbered hx)
        obtain ⟨asked, hs, rfl⟩ := asksForChosen_answer d.console (Option.mem_toList.mp he) filter (hx.trans hfilter)
        rw [Option.some.inj (hs.symm.trans hm)]
      · exact (ih same).asked x (hf ▸ List.mem_append_right _ (List.mem_cons_of_mem _ hx)) filter hfilter
    · rw [shown?_concat] at hl
      rcases eq_or_listing?_of_next hl with hl | hl
      · exact (ih same).shown l hl
      · exact (ih same).asked _ hp l.1 (filter_of_listing? hl)

/-- Where details are opened in quiet, they never show the tokens of another machine. -/
theorem tokens_listedFor_of_inQuiet (h : Reached inQuiet (.start setup authorization) d es)
    (hm : d.console.machines.selected = some machine) : ∀ t ∈ d.console.machines.tokens, ListedFor es machine t := by
  rw [h.machines.2]
  cases hs : shown? es with
  | none =>
    intro t ht
    cases ht
  | some l => exact listedFor_of_shown? hs ((ownListings h hm).shown l hs)

/-- Nor do they where calls are made one by one. -/
theorem tokens_listedFor_of_oneByOne (h : Reached oneByOne (.start setup authorization) d es)
    (hm : d.console.machines.selected = some machine) : ∀ t ∈ d.console.machines.tokens, ListedFor es machine t := by
  refine tokens_listedFor_of_inQuiet (h.mono fun d c hc _ x hx => ?_) hm
  rw [show d.inFlight = [] from hc] at hx
  cases hx

end Console
end MfaConsole
