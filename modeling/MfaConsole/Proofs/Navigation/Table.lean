import Mathlib.Data.List.Induction
import MfaConsole.Proofs.Navigation.Address

/-! What holds of every table of states that is made from declarations, and what a table that passes its check
    promises. -/

namespace MfaConsole
namespace Navigation
open Text

/-! ### Patterns as they are read -/

/-- The pieces of a path that holds no question mark can stand in a written path as they are. -/
theorem plain_of_mem_pathPieces_of_not_mem {path p : List Char} (hq : '?' ∉ path) (h : p ∈ pathPieces path) :
    Plain p := by
  obtain ⟨hp, -⟩ := List.mem_filter.mp h
  exact ⟨plain_of_mem_pathPieces h, not_mem_of_mem_pieces hp, fun hm => hq (mem_of_mem_pieces hp _ hm).2⟩

theorem Segment.plain_ofPiece {p : List Char} (h : Navigation.Plain p) : (Segment.ofPiece p).Plain := by
  rw [Segment.ofPiece]
  split
  · trivial
  · rw [Segment.Plain, String.toList_ofList]
    exact h

/-- No literal segment of a pattern could be read as anything else. -/
def Pattern.Plain (p : Pattern) : Prop := ∀ segment ∈ p.segments, segment.Plain

/-- Each segment of a pattern that is read is what a piece of a path is read as. -/
theorem Pattern.mem_segments_parse {s : String} {segment : Segment} (h : segment ∈ (Pattern.parse s).segments) :
    ∃ piece, Navigation.Plain piece ∧ Segment.ofPiece piece = segment := by
  obtain ⟨piece, hp, rfl⟩ := List.mem_map.mp h
  exact ⟨piece, plain_of_mem_pathPieces_of_not_mem (not_mem_cutOrAll_fst _) hp, rfl⟩

theorem Pattern.plain_parse (s : String) : (Pattern.parse s).Plain := by
  intro segment hm
  obtain ⟨piece, plain, rfl⟩ := mem_segments_parse hm
  exact Segment.plain_ofPiece plain

theorem Pattern.Plain.join {p q : Pattern} (hp : p.Plain) (hq : q.Plain) : (p.join q).Plain := fun segment hm =>
  (List.mem_append.mp hm).elim (hp segment) (hq segment)

namespace Registry

/-! ### Tables of declarations -/

section Declared
variable (mount : String) (release : Release)

variable (ds : List Declaration) (defaults : List (String × String))

/-- A state declared last stands last, and the states before it are as without it. -/
theorem states_concat (d : Declaration) : (ofDeclarations mount release (ds ++ [d]) defaults).states =
    (ofDeclarations mount release ds defaults).states ++
      [declare mount release (ofDeclarations mount release ds defaults).states d] :=
  List.foldl_append

/-- The states stand in the order of their declarations. -/
theorem states_ofDeclarations :
    (ofDeclarations mount release ds defaults).states.map (fun s => (s.name, s.controller)) =
      ds.map fun d => (d.name, d.controller) := by
  induction ds using List.reverseRecOn with
  | nil => rfl
  | append_singleton ds d ih =>
    rw [states_concat, List.map_append, List.map_append, ih]
    rfl

section Patterns
variable {P : Pattern → Prop} (parsed : ∀ s, P (Pattern.parse s))
  (joined : ∀ {p q : Pattern}, P p → P q → P (p.join q))
include parsed joined

theorem pattern_declare_induction {states : List State} (h : ∀ s ∈ states, P s.pattern) (d : Declaration) :
    P (declare mount release states d).pattern := by
  rw [declare]
  cases hp : (parentName? d.name).bind (find? states) with
  | none => exact parsed d.url
  | some parent =>
    obtain ⟨name, -, found⟩ := Option.bind_eq_some_iff.mp hp
    exact joined (h parent (List.mem_of_find?_eq_some found)) (parsed d.url)

/-- What holds of every pattern that is read, and of one pattern after another where it holds of both, holds of the
    patterns of all states. -/
theorem pattern_induction : ∀ s ∈ (ofDeclarations mount release ds defaults).states, P s.pattern := by
  induction ds using List.reverseRecOn with
  | nil => exact fun _ h => absurd h List.not_mem_nil
  | append_singleton ds d ih =>
    intro s hs
    rw [states_concat] at hs
    rcases List.mem_append.mp hs with hs | hs
    · exact ih s hs
    · obtain rfl := List.mem_singleton.mp hs
      exact pattern_declare_induction mount release parsed joined ih d

end Patterns

theorem plain_ofDeclarations : ∀ s ∈ (ofDeclarations mount release ds defaults).states, s.pattern.Plain :=
  pattern_induction mount release ds defaults Pattern.plain_parse Pattern.Plain.join

end Declared

/-! ### Tables that pass their check -/

variable {r : Registry}

theorem forM_eq_ok_iff {α ε : Type} {f : α → Except ε Unit} :
    ∀ {as : List α}, as.forM f = .ok () ↔ ∀ a ∈ as, f a = .ok ()
  | [] => iff_of_true rfl fun _ h => absurd h List.not_mem_nil
  | a :: as => by
    rw [List.forall_mem_cons, ← forM_eq_ok_iff]
    show (f a >>= fun _ => as.forM f) = .ok () ↔ _
    cases f a with
    | error e => exact iff_of_false (fun h => by cases h) fun h => by cases h.1
    | ok _ => exact (and_iff_right rfl).symm

/-- A default child is declared as a child of its parent, which is declared itself, and needs no parameter. -/
structure DefaultOf (r : Registry) (parent child : String) : Prop where
  below : parentName? child = some parent
  declared : ∃ s, r.state? parent = some s
  bare : ∃ s, r.state? child = some s ∧ s.pattern.hasParameters = false

/-- The parents of all states are declared, and all defaults are children that need no parameter. -/
structure Valid (r : Registry) : Prop where
  parents : ∀ s ∈ r.states, ∀ parent, s.parent? = some parent → ∃ t, r.state? parent = some t
  defaults : ∀ parent child, r.defaultChild? parent = some child → r.DefaultOf parent child

theorem checkDefault_eq_ok {parent child : String} (h : r.checkDefault (parent, child) = .ok ()) :
    r.DefaultOf parent child := by
  rw [checkDefault] at h
  split at h
  · cases h
  · next declared =>
    have hp : ∃ s, r.state? parent = some s := by
      simpa [Option.ne_none_iff_exists'] using declared
    split at h
    · cases h
    · next s hs =>
      split at h
      · next ok =>
        have name : s.name = child := (state?_eq_some hs).2
        exact ⟨name ▸ ok.1, hp, s, hs, ok.2⟩
      · cases h

theorem valid_of_validate (h : r.validate = .ok ()) : r.Valid := by
  rw [validate] at h
  rcases hs : r.states.forM r.checkParent with e | _ <;> rw [hs] at h
  · cases h
  refine ⟨fun s hm parent hp => ?_, fun parent child hc => ?_⟩
  · have checked := forM_eq_ok_iff.mp hs s hm
    simp only [checkParent, hp] at checked
    split at checked
    · next declared => exact Option.isSome_iff_exists.mp declared
    · cases checked
  · exact checkDefault_eq_ok (forM_eq_ok_iff.mp h (parent, child) (KeyMap.mem_of_lookup hc))

end Registry
end Navigation
end MfaConsole
