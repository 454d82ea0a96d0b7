import MfaConsole.Proofs.Navigation.Choice

/-! Where parent states lead on to. In a table that passes its check each default child is one name part below its
    parent, so a chain of default children goes down the names and ends before the steps allowed for it run out. -/

namespace MfaConsole
namespace Navigation
open Text

/-- A name with a parent is the parent's name, a dot and a part without dots. -/
theorem eq_append_of_parentName? {name parent : String} (h : parentName? name = some parent) :
    ∃ part : String, name = parent ++ "." ++ part ∧ '.' ∉ part.toList := by
  obtain ⟨⟨before, after⟩, hr, rfl⟩ := Option.map_eq_some_iff.mp h
  obtain ⟨same, last⟩ := eq_append_of_cutLast? hr
  refine ⟨String.ofList after, String.toList_inj.mp ?_, by rwa [String.toList_ofList]⟩
  simp only [same, String.toList_append, String.toList_ofList, List.append_assoc]
  rfl

namespace Registry
variable {r : Registry}

/-- The default children of a state lead on from it by the name parts, one for each, to a state that has none. -/
inductive LeadsOn (r : Registry) : (name : String) → (parts : List String) → (target : String) → Prop where
  | here {name : String} (h : r.defaultChild? name = none) : LeadsOn r name [] name
  | hop {name part target : String} {parts : List String} (h : r.defaultChild? name = some (name ++ "." ++ part))
      (plain : '.' ∉ part.toList) (rest : LeadsOn r (name ++ "." ++ part) parts target) :
      LeadsOn r name (part :: parts) target

namespace LeadsOn
variable {name target : String} {parts : List String}

theorem target_eq (h : r.LeadsOn name parts target) :
    target = parts.foldl (fun name part => name ++ "." ++ part) name := by
  induction h with
  | here => rfl
  | hop _ _ _ ih => exact ih

theorem plain (h : r.LeadsOn name parts target) : ∀ part ∈ parts, '.' ∉ part.toList := by
  induction h with
  | here => exact fun _ h => absurd h List.not_mem_nil
  | hop _ plain _ ih => exact List.forall_mem_cons.mpr ⟨plain, ih⟩

theorem defaultChild?_target (h : r.LeadsOn name parts target) : r.defaultChild? target = none := by
  induction h with
  | here h => exact h
  | hop _ _ _ ih => exact ih

/-- The chain ends at a state that needs no parameter, if it begins at one. -/
theorem bare (h : r.LeadsOn name parts target) (valid : r.Valid)
    (first : ∃ s, r.state? name = some s ∧ s.pattern.hasParameters = false) :
    ∃ s, r.state? target = some s ∧ s.pattern.hasParameters = false := by
  induction h with
  | here => exact first
  | hop h _ _ ih => exact ih (valid.defaults _ _ h).bare

end LeadsOn

/-! ### The steps allowed suffice -/

/-- How many parents with a default child have a name that is not shorter. A chain of default children uses up one of
    them with each hop. -/
def hopsLeft (r : Registry) (name : String) : Nat := r.defaults.entries.countP fun e => name.length ≤ e.1.length

theorem hopsLeft_le (r : Registry) (name : String) : r.hopsLeft name ≤ r.defaults.entries.length :=
  List.countP_le_length

theorem hopsLeft_hop {name part : String} (h : r.defaultChild? name = some (name ++ "." ++ part)) :
    r.hopsLeft (name ++ "." ++ part) < r.hopsLeft name := by
  obtain ⟨before, after, he⟩ := List.append_of_mem (KeyMap.mem_of_lookup h)
  have longer : name.length < (name ++ "." ++ part).length := by
    simp only [String.length_append]
    have : ".".length = 1 := rfl
    omega
  have fewer (es : List (String × String)) : es.countP (fun e => (name ++ "." ++ part).length ≤ e.1.length) ≤
      es.countP fun e => name.length ≤ e.1.length := by
    refine List.countP_mono_left fun e _ hl => ?_
    rw [decide_eq_true_eq] at hl ⊢
    omega
  have spent : ¬(name ++ "." ++ part).length ≤ name.length := by omega
  have before' := fewer before
  have after' := fewer after
  simp only [hopsLeft, he, List.countP_append, List.countP_cons, spent, decide_false, decide_true, Nat.le_refl]
  simp only [Bool.false_eq_true, if_false, if_true]
  omega

/-- In a table that passes its check, the default children followed for as many steps as are left end at a state that
    has none. -/
theorem Valid.leadsOn_followDefaults (h : r.Valid) : ∀ (steps : Nat) (name : String), r.hopsLeft name ≤ steps →
    ∃ parts, r.LeadsOn name parts (r.followDefaults steps name) := by
  intro steps
  induction steps with
  | zero =>
    intro name hl
    cases hc : r.defaultChild? name with
    | none => exact ⟨[], .here hc⟩
    | some child =>
      obtain ⟨part, rfl, -⟩ := eq_append_of_parentName? (h.defaults name child hc).below
      have := hopsLeft_hop hc
      omega
  | succ steps ih =>
    intro name hl
    cases hc : r.defaultChild? name with
    | none =>
      rw [followDefaults, hc]
      exact ⟨[], .here hc⟩
    | some child =>
      obtain ⟨part, rfl, plain⟩ := eq_append_of_parentName? (h.defaults name child hc).below
      have := hopsLeft_hop hc
      obtain ⟨parts, rest⟩ := ih (name ++ "." ++ part) (by omega)
      rw [followDefaults, hc]
      exact ⟨part :: parts, .hop hc plain rest⟩

/-- A state with a default child leads on, by at least one hop, to a state that has none and needs no parameter. -/
theorem Valid.leadsOn_of_defaultTarget? (h : r.Valid) {name target : String}
    (ht : r.defaultTarget? name = some target) :
    (∃ part parts, r.LeadsOn name (part :: parts) target) ∧
      ∃ s, r.state? target = some s ∧ s.pattern.hasParameters = false := by
  obtain ⟨child, hc, rfl⟩ := Option.map_eq_some_iff.mp ht
  have default := h.defaults name child hc
  obtain ⟨part, rfl, plain⟩ := eq_append_of_parentName? default.below
  obtain ⟨parts, rest⟩ := h.leadsOn_followDefaults _ (name ++ "." ++ part) (hopsLeft_le r _)
  exact ⟨⟨part, parts, .hop hc plain rest⟩, rest.bare h default.bare⟩

/-- The end of a chain of default children has none itself. -/
theorem Valid.defaultTarget?_target (h : r.Valid) {name target : String} (ht : r.defaultTarget? name = some target) :
    r.defaultTarget? target = none := by
  obtain ⟨⟨part, parts, chain⟩, -⟩ := h.leadsOn_of_defaultTarget? ht
  rw [defaultTarget?, chain.defaultChild?_target]
  rfl

/-! ### Redirects -/

/-- A URL is led on from the state chosen for its path. -/
theorem chosen_of_redirect {url source target next : String} (h : r.resolve url = .ok (.redirect source target next)) :
    ∃ s, Chosen r.states (pathPieces (cutOrAll '?' url.toList).1) s ∧ s.name = source ∧
      r.defaultTarget? source = some target ∧ r.href target [] = .ok next := by
  rcases resolve_cases r url with ⟨-, refused⟩ | ⟨s, chosen, led⟩
  · cases refused.symm.trans h
  · rw [led] at h
    split at h
    · next t hd =>
      rcases hh : r.href t [] with e | written <;> rw [hh] at h <;> cases h
      exact ⟨s, chosen, rfl, hd, hh⟩
    · cases h

/-- In a table that passes its check every URL that is not refused for want of a match leads somewhere. -/
theorem Valid.eq_noMatch_of_resolve (h : r.Valid) {url : String} {e : NavError} (he : r.resolve url = .error e) :
    e = .noMatch url := by
  rcases resolve_cases r url with ⟨-, refused⟩ | ⟨s, -, led⟩
  · cases refused.symm.trans he
    rfl
  · rw [led] at he
    split at he
    · next t hd =>
      obtain ⟨-, t, ht, bare⟩ := h.leadsOn_of_defaultTarget? hd
      obtain ⟨next, hn⟩ := exists_href_of_bare ht bare
      rw [hn] at he
      cases he
    · cases he

/-- In a table made from declarations that passes its check, a URL is refused for want of a match only, and one that is
    led on is led from a parent down its default children, one hop for each name part, to a declared state that has no
    default child, at the URL of that state. Every chain of default children is followed to its end. -/
theorem redirects_of_validate {mount : String} {release : Release} {ds : List Declaration}
    {defaults : List (String × String)} (h : (ofDeclarations mount release ds defaults).validate = .ok ()) :
    let r := ofDeclarations mount release ds defaults
    (∀ url e, r.resolve url = .error e → e = .noMatch url) ∧
    (∀ url source target next, r.resolve url = .ok (.redirect source target next) →
      (∃ s ∈ r.states, s.name = target) ∧ r.defaultChild? target = none ∧ r.href target [] = .ok next ∧
      ∃ parts ≠ [], r.LeadsOn source parts target ∧ (∀ part ∈ parts, '.' ∉ part.toList) ∧
        target = parts.foldl (fun name part => name ++ "." ++ part) source) ∧
    ∀ name child, r.defaultChild? name = some child →
      ∃ target, r.defaultTarget? name = some target ∧ ∃ parts ≠ [], r.LeadsOn name parts target := by
  intro r
  have valid : r.Valid := valid_of_validate h
  refine ⟨fun url e => valid.eq_noMatch_of_resolve, fun url source target next hr => ?_, fun name child hc => ?_⟩
  · obtain ⟨-, -, -, ht, hn⟩ := chosen_of_redirect hr
    obtain ⟨⟨part, parts, chain⟩, s, hs, -⟩ := valid.leadsOn_of_defaultTarget? ht
    refine ⟨⟨s, state?_eq_some hs⟩, chain.defaultChild?_target, hn, part :: parts, List.cons_ne_nil _ _, chain, ?_⟩
    exact ⟨chain.plain, chain.target_eq⟩
  · have ht : r.defaultTarget? name = some _ := Option.map_eq_some_iff.mpr ⟨child, hc, rfl⟩
    obtain ⟨⟨part, parts, chain⟩, -⟩ := valid.leadsOn_of_defaultTarget? ht
    exact ⟨_, ht, part :: parts, List.cons_ne_nil _ _, chain⟩

/-- A parent whose default child has a default child itself. -/
def nested : List Declaration :=
  [⟨"a", "/a", "a", "a", none⟩, ⟨"a.b", "/b", "a", "b", none⟩, ⟨"a.b.c", "/c?q", "a", "c", none⟩]

def nestedDefaults : List (String × String) := [("a", "a.b"), ("a.b", "a.b.c")]

/-- The parent of two levels of default children is led on from by two hops. -/
theorem redirects_of_validate_nested :
    (ofDeclarations "" ⟨"1.0"⟩ nested nestedDefaults).validate = .ok () ∧
    (ofDeclarations "" ⟨"1.0"⟩ nested nestedDefaults).resolve "/a?q=1" = .ok (.redirect "a" "a.b.c" "/a/b/c") ∧
    ∃ parts ≠ [], (ofDeclarations "" ⟨"1.0"⟩ nested nestedDefaults).LeadsOn "a" parts "a.b.c" := by
  have valid : (ofDeclarations "" ⟨"1.0"⟩ nested nestedDefaults).validate = .ok () := rfl
  obtain ⟨-, led, -⟩ := redirects_of_validate valid
  obtain ⟨-, -, -, parts, some, chain, -⟩ := led "/a?q=1" _ _ _ rfl
  exact ⟨valid, rfl, parts, some, chain⟩

end Registry
end Navigation
end MfaConsole
