import MfaConsole.Proofs.Navigation.Table

/-! Whose patterns the pattern of a state begins with. A state is declared below the first state of its parent's name
    among those declared so far, while the check of a table looks for the parent among all states: a parent declared too
    late passes the check, but its pattern is not in those of its children. -/

namespace MfaConsole
namespace Navigation

namespace Pattern

/-- The pattern without segments and query names. -/
def empty : Pattern := ⟨[], []⟩

/-- The patterns one after the other. -/
def concat (ps : List Pattern) : Pattern := ⟨ps.flatMap Pattern.segments, ps.flatMap Pattern.queryNames⟩

theorem concat_singleton (p : Pattern) : concat [p] = p := by
  simp [concat]

theorem concat_append_singleton (ps : List Pattern) (p : Pattern) : concat (ps ++ [p]) = (concat ps).join p := by
  simp [concat, join]

theorem eq_join_iff {p q : Pattern} : q = p.join q ↔ p = empty := by
  obtain ⟨segments, names⟩ := p
  obtain ⟨segments', names'⟩ := q
  simp [join, empty]

end Pattern

namespace Registry

/-- The declarations of the ancestors of a state and of the state itself, from the topmost one down: the parent of each
    is the first one declared of its name, and declared before it. -/
inductive Lineage : (before : List Declaration) → (d : Declaration) → (line : List Declaration) → Prop where
  | top {before : List Declaration} {d : Declaration} (h : parentName? d.name = none) : Lineage before d [d]
  | under {before between line : List Declaration} {parent d : Declaration}
      (named : parentName? d.name = some parent.name) (first : ∀ e ∈ before, e.name ≠ parent.name)
      (up : Lineage before parent line) :
      Lineage (before ++ parent :: between) d (line ++ [d])

/-- Every parent is declared before its children. -/
def InOrder (ds : List Declaration) : Prop :=
  ∀ before d after, ds = before ++ d :: after → ∀ parent, parentName? d.name = some parent →
    ∃ e ∈ before, e.name = parent

section Declared
variable (mount : String) (release : Release) (defaults : List (String × String)) {before after : List Declaration}
  {d : Declaration} {parent : String}

/-! ### A state and those before it -/

theorem states_prefix (before after : List Declaration) :
    (ofDeclarations mount release before defaults).states <+:
      (ofDeclarations mount release (before ++ after) defaults).states := by
  induction after using List.reverseRecOn with
  | nil => simp
  | append_singleton ds d ih =>
    rw [← List.append_assoc, states_concat]
    exact ih.trans (List.prefix_append _ _)

/-- A state is declared from the states before it, and stands after them. -/
theorem exists_states_append (before : List Declaration) (d : Declaration) (after : List Declaration) :
    ∃ later, (ofDeclarations mount release (before ++ d :: after) defaults).states =
      (ofDeclarations mount release before defaults).states ++
        declare mount release (ofDeclarations mount release before defaults).states d :: later := by
  obtain ⟨later, h⟩ := states_prefix mount release defaults (before ++ [d]) after
  rw [states_concat, List.append_assoc, List.append_assoc] at h
  exact ⟨later, h.symm⟩

theorem length_states (ds : List Declaration) :
    (ofDeclarations mount release ds defaults).states.length = ds.length := by
  have h := congrArg List.length (states_ofDeclarations mount release ds defaults)
  rwa [List.length_map, List.length_map] at h

theorem names_states (ds : List Declaration) :
    (ofDeclarations mount release ds defaults).states.map (·.name) = ds.map (·.name) := by
  have h := congrArg (List.map Prod.fst) (states_ofDeclarations mount release ds defaults)
  rwa [List.map_map, List.map_map] at h

theorem find?_states_eq_none_iff (ds : List Declaration) :
    find? (ofDeclarations mount release ds defaults).states parent = none ↔ ∀ e ∈ ds, e.name ≠ parent := by
  have names : (∀ n ∈ (ofDeclarations mount release ds defaults).states.map (·.name), n ≠ parent) ↔
      ∀ n ∈ ds.map (·.name), n ≠ parent := by rw [names_states]
  rw [List.forall_mem_map, List.forall_mem_map] at names
  rw [find?, List.find?_eq_none]
  simpa using names

/-! ### The pattern of a state -/

theorem pattern_declare {states : List State} (hp : parentName? d.name = some parent) {t : State}
    (ht : find? states parent = some t) :
    (declare mount release states d).pattern = t.pattern.join (Pattern.parse d.url) := by
  rw [declare, hp, Option.bind_some, ht]
  rfl

theorem pattern_declare_of_none {states : List State} (h : ∀ parent, parentName? d.name = some parent →
    find? states parent = none) : (declare mount release states d).pattern = Pattern.parse d.url := by
  have none : (parentName? d.name).bind (find? states) = none := Option.bind_eq_none_iff.mpr h
  rw [declare, none]
  rfl

/-- A pattern follows that of the parent if the parent is declared before, and else only if the parent's is empty. -/
theorem pattern_declare_iff (hp : parentName? d.name = some parent) {t : State}
    (ht : (ofDeclarations mount release (before ++ d :: after) defaults).state? parent = some t) :
    (declare mount release (ofDeclarations mount release before defaults).states d).pattern =
        t.pattern.join (Pattern.parse d.url) ↔ (∃ e ∈ before, e.name = parent) ∨ t.pattern = Pattern.empty := by
  obtain ⟨later, whole⟩ := exists_states_append mount release defaults before d after
  cases hf : find? (ofDeclarations mount release before defaults).states parent with
  | some p =>
    have same : p = t := by
      rw [state?, whole, find?, List.find?_append] at ht
      rw [find?] at hf
      rw [hf] at ht
      exact Option.some.inj ht
    have declared : ∃ e ∈ before, e.name = parent := by
      obtain ⟨mem, rfl⟩ := state?_eq_some hf
      have named : _ ∈ (ofDeclarations mount release before defaults).states.map (·.name) := List.mem_map_of_mem mem
      rwa [names_states, List.mem_map] at named
    exact iff_of_true (same ▸ pattern_declare mount release hp hf) (Or.inl declared)
  | none =>
    have fresh := (find?_states_eq_none_iff mount release defaults before).mp hf
    rw [pattern_declare_of_none mount release fun q hq => Option.some.inj (hp.symm.trans hq) ▸ hf, Pattern.eq_join_iff]
    have notDeclared : ¬∃ e ∈ before, e.name = parent := by
      rintro ⟨e, he, hn⟩
      exact fresh e he hn
    exact (or_iff_right notDeclared).symm

/-- A pattern is made of those of the ancestors and the state's own. -/
theorem Lineage.pattern_declare {line : List Declaration} (h : Lineage before d line) :
    (declare mount release (ofDeclarations mount release before defaults).states d).pattern =
      Pattern.concat (line.map fun e => Pattern.parse e.url) := by
  induction h with
  | top hp =>
    rw [List.map_singleton, Pattern.concat_singleton]
    exact pattern_declare_of_none mount release fun parent hq => by cases hp.symm.trans hq
  | @under before between line parent d named first up ih =>
    obtain ⟨later, whole⟩ := exists_states_append mount release defaults before parent between
    have found : find? (ofDeclarations mount release (before ++ parent :: between) defaults).states parent.name =
        some (declare mount release (ofDeclarations mount release before defaults).states parent) := by
      have none := (find?_states_eq_none_iff mount release defaults before).mpr first
      rw [whole, find?, List.find?_append, ← find?, none]
      simp [declare]
    rw [Registry.pattern_declare mount release named found, ih, List.map_append, List.map_singleton,
      Pattern.concat_append_singleton]

theorem InOrder.exists_lineage {ds : List Declaration} (order : InOrder ds) {before after : List Declaration}
    {d : Declaration} (hd : ds = before ++ d :: after) : ∃ line, Lineage before d line := by
  induction hn : before.length using Nat.strongRecOn generalizing before after d with
  | _ n ih =>
    cases hp : parentName? d.name with
    | none => exact ⟨_, .top hp⟩
    | some name =>
      have declared : (before.find? fun e => e.name = name).isSome := by
        obtain ⟨e, he, hname⟩ := order before d after hd name hp
        exact List.find?_isSome.mpr ⟨e, he, decide_eq_true hname⟩
      obtain ⟨parent, found⟩ := Option.isSome_iff_exists.mp declared
      obtain ⟨named, earlier, between, rfl, first⟩ := List.find?_eq_some_iff_append.mp found
      obtain rfl := of_decide_eq_true named
      obtain ⟨line, up⟩ := ih earlier.length (by simp [← hn]) (hd.trans (List.append_assoc _ _ _)) rfl
      exact ⟨_, .under hp (fun e he => by simpa using first e he) up⟩

variable {mount release defaults}

/-- In a table that passes its check, the pattern of a state with a parent is the parent's, followed by what the state
    declares itself, exactly if the parent is declared before the state or its pattern is empty. Where a state and each
    of its ancestors is declared after its parent, as in a table in which all parents come before their children, the
    pattern is made of those declared from the topmost ancestor down. -/
theorem pattern_joined_iff
    (h : (ofDeclarations mount release (before ++ d :: after) defaults).validate = .ok ()) :
    let r := ofDeclarations mount release (before ++ d :: after) defaults
    ∃ s, r.states[before.length]? = some s ∧ s.name = d.name ∧
      (∀ parent, parentName? d.name = some parent → ∃ t, r.state? parent = some t ∧
        (s.pattern = t.pattern.join (Pattern.parse d.url) ↔
          (∃ e ∈ before, e.name = parent) ∨ t.pattern = Pattern.empty)) ∧
      (∀ line, Lineage before d line → s.pattern = Pattern.concat (line.map fun e => Pattern.parse e.url)) ∧
      (InOrder (before ++ d :: after) → ∃ line, Lineage before d line) := by
  intro r
  obtain ⟨later, whole⟩ := exists_states_append mount release defaults before d after
  have stands : r.states[before.length]? =
      some (declare mount release (ofDeclarations mount release before defaults).states d) := by
    rw [whole, ← length_states mount release defaults before, List.getElem?_append_right (Nat.le_refl _), Nat.sub_self,
      List.getElem?_cons_zero]
  refine ⟨_, stands, rfl, fun parent hp => ?_, fun line => Lineage.pattern_declare mount release defaults,
    fun order => order.exists_lineage rfl⟩
  obtain ⟨t, ht⟩ := (valid_of_validate h).parents _ (List.mem_of_getElem? stands) parent hp
  exact ⟨t, ht, pattern_declare_iff mount release defaults hp ht⟩

end Declared

/-- A parent that is declared between its children, each of which has a child of its own. -/
def scattered : List Declaration :=
  [⟨"a.b", "/b?p", "a", "b", none⟩, ⟨"a", "/a", "a", "a", none⟩, ⟨"a.b.c", "/c", "a", "c", none⟩,
   ⟨"a.d", "/d?q", "a", "d", none⟩, ⟨"a.d.e", "/\x7bx\x7d", "a", "e", none⟩]

theorem lineage_scattered : Lineage (scattered.take 4) ⟨"a.d.e", "/\x7bx\x7d", "a", "e", none⟩
    [⟨"a", "/a", "a", "a", none⟩, ⟨"a.d", "/d?q", "a", "d", none⟩, ⟨"a.d.e", "/\x7bx\x7d", "a", "e", none⟩] := by
  have parent : Lineage (scattered.take 3) ⟨"a.d", "/d?q", "a", "d", none⟩
      [⟨"a", "/a", "a", "a", none⟩, ⟨"a.d", "/d?q", "a", "d", none⟩] :=
    @Lineage.under (scattered.take 1) [_] _ _ _ rfl (by decide) (.top rfl)
  exact @Lineage.under (scattered.take 3) [] _ _ _ rfl (by decide) parent

/-- What comes after its parent, and its parent after its own, has the patterns of both. -/
theorem pattern_joined_scattered :
    (ofDeclarations "" ⟨"1.0"⟩ scattered []).validate = .ok () ∧
    ∃ s, (ofDeclarations "" ⟨"1.0"⟩ scattered []).states[4]? = some s ∧ s.name = "a.d.e" ∧
      s.pattern = Pattern.concat [Pattern.parse "/a", Pattern.parse "/d?q", Pattern.parse "/\x7bx\x7d"] := by
  have valid : (ofDeclarations "" ⟨"1.0"⟩ scattered []).validate = .ok () := rfl
  obtain ⟨s, stands, named, -, made, -⟩ := @pattern_joined_iff "" ⟨"1.0"⟩ [] (scattered.take 4) [] _ valid
  exact ⟨valid, s, stands, named, made _ lineage_scattered⟩

/-- A child that is declared before its parent. -/
def lateParent : List Declaration := [⟨"a.b", "/b", "a", "b", none⟩, ⟨"a", "/a", "a", "a", none⟩]

/-- It has its own pattern only, although the table passes its check. -/
theorem exists_pattern_not_joined :
    (ofDeclarations "" ⟨"1.0"⟩ lateParent []).validate = .ok () ∧
    ∃ s t, (ofDeclarations "" ⟨"1.0"⟩ lateParent []).state? "a.b" = some s ∧ s.parent? = some "a" ∧
      (ofDeclarations "" ⟨"1.0"⟩ lateParent []).state? "a" = some t ∧
      s.pattern ≠ t.pattern.join (Pattern.parse "/b") ∧ s.url = "/b" :=
  ⟨rfl, _, _, rfl, rfl, rfl, by decide, rfl⟩

end Registry
end Navigation
end MfaConsole
