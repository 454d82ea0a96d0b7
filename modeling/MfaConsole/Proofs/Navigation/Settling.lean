import MfaConsole.Proofs.Navigation.Redirects

/-! Where the URL that a parent leads on to leads in turn. It belongs to the state at the end of the parent's default
    children, but of the states declared for one path the first is taken, and the check of a table does not compare
    paths: the URL may lead to another state, or back to the parent. -/

namespace MfaConsole
namespace Navigation
open Text

namespace Pattern

theorem literalCount_eq_length_iff {p : Pattern} :
    p.literalCount = p.segments.length ↔ ∀ segment ∈ p.segments, segment.isLiteral = true := List.countP_eq_length

theorem taken_of_isLiteral {ss : List Segment} {ps : List (List Char)} (h : ∀ s ∈ ss, s.isLiteral = true) :
    taken ss ps = [] := by
  fun_induction taken ss ps with
  | case1 text ss p ps ih => exact ih (List.forall_mem_cons.mp h).2
  | case2 name ss p ps ih => cases h _ List.mem_cons_self
  | case3 => rfl

/-- A path fits no two different lists of literal segments. -/
theorem eq_of_fits_of_isLiteral {ss ts : List Segment} {ps : List (List Char)} (hs : fits ss ps = true)
    (ht : fits ts ps = true) (ls : ∀ s ∈ ss, s.isLiteral = true) (lt : ∀ t ∈ ts, t.isLiteral = true) : ss = ts := by
  fun_induction fits ss ps generalizing ts with
  | case1 =>
    cases ts with
    | nil => rfl
    | cons t ts => cases t <;> cases ht
  | case2 text ss p ps ih =>
    rw [Bool.and_eq_true, decide_eq_true_eq] at hs
    rw [List.forall_mem_cons] at ls
    cases ts with
    | nil => cases ht
    | cons t ts =>
      rw [List.forall_mem_cons] at lt
      cases t with
      | literal other =>
        rw [fits, Bool.and_eq_true, decide_eq_true_eq] at ht
        rw [String.toList_inj.mp (hs.1.trans ht.1.symm), ih hs.2 ht.2 ls.2 lt.2]
      | parameter _ => cases lt.1
  | case3 x ss p ps ih => cases ls _ List.mem_cons_self
  | case4 => cases hs

end Pattern

namespace Registry

/-- The first state that is declared for a path. -/
def firstFor? (r : Registry) (segments : List Segment) : Option State :=
  r.states.find? fun s => s.pattern.segments = segments

theorem firstFor?_eq_some {r : Registry} {segments : List Segment} {s : State} (h : r.firstFor? segments = some s) :
    s ∈ r.states ∧ s.pattern.segments = segments := by
  refine ⟨List.mem_of_find?_eq_some h, ?_⟩
  have := List.find?_some h
  exact of_decide_eq_true this

/-- What is written without parameters has literal segments only. -/
theorem Filled.isLiteral_of_nil {ss : List Segment} {ps : List (List Char)} (h : Filled [] ss ps) :
    ∀ s ∈ ss, s.isLiteral = true := by
  induction h with
  | nil => exact fun _ h => absurd h List.not_mem_nil
  | literal _ ih => exact List.forall_mem_cons.mpr ⟨rfl, ih⟩
  | parameter hv => cases hv

section Written
variable {r : Registry} {t : State} {ps : List (List Char)}

/-- Of the states that match what is written for a state without parameters, the first with the same segments is
    chosen. -/
theorem Chosen.firstFor? {c : State} (h : Chosen r.states ps c) (ht : t ∈ r.states)
    (filled : Filled [] t.pattern.segments ps) : r.firstFor? t.pattern.segments = some c := by
  have fits := matches_iff.mp h.1
  have literal : c.pattern.literalCount = c.pattern.segments.length := by
    refine Nat.le_antisymm c.pattern.literalCount_le_length ?_
    -- `t` matches too, so the chosen state has as many literal segments, which are as many as there are pieces.
    have most := h.le ht (matches_iff.mpr filled.fits)
    rwa [Pattern.literalCount_eq_length_iff.mpr filled.isLiteral_of_nil, (matches_iff.mpr filled.fits).1,
      ← h.1.1] at most
  have same : c.pattern.segments = t.pattern.segments := Pattern.eq_of_fits_of_isLiteral fits filled.fits
    (Pattern.literalCount_eq_length_iff.mp literal) filled.isLiteral_of_nil
  obtain ⟨-, before, after, hr, earlier, -⟩ := h
  refine List.find?_eq_some_iff_append.mpr ⟨decide_eq_true same, before, after, hr, fun s hs => ?_⟩
  rw [Bool.not_eq_true', decide_eq_false_iff_not]
  intro hsame
  have fewer := earlier s hs (matches_iff.mpr (hsame ▸ filled.fits))
  rw [Pattern.literalCount, hsame, ← same] at fewer
  exact Nat.lt_irrefl _ fewer

end Written

/-! ### What becomes of a redirect -/

section Redirected
variable {r : Registry} {url source target next : String}

theorem fillQuery_nil (names : List String) : fillQuery [] names = [] := by
  rw [fillQuery, List.filterMap_eq_nil_iff]
  exact fun _ _ => rfl

/-- The URL that a parent leads on to is that of the state at the end of its default children, and it leads to the first
    state declared for the path of that state, or on from there. -/
theorem exists_firstFor?_of_redirect (plain : ∀ s ∈ r.states, s.pattern.Plain)
    (h : r.resolve url = .ok (.redirect source target next)) :
    ∃ t c, r.state? target = some t ∧ r.firstFor? t.pattern.segments = some c ∧
      r.resolve next = match r.defaultTarget? c.name with
        | some further => (r.href further []).map fun last => .redirect c.name further last
        | none => .ok (.matched ⟨c.name, c.controller, KeyMap.empty⟩) := by
  obtain ⟨-, -, -, -, hn⟩ := chosen_of_redirect h
  obtain ⟨t, ps, ht, filled, rfl⟩ := href_eq_ok_iff.mp hn
  have mem : t ∈ r.states := (state?_eq_some ht).1
  have written : ∀ p ∈ ps, Plain p := filled.plain (plain t mem)
  let url := Form.withQuery (String.ofList (pathOfPieces ps)) (fillQuery [] t.pattern.queryNames)
  have cut : cutOrAll '?' url.toList = (pathOfPieces ps, []) := by
    rw [cutOrAll_withQuery (not_mem_pathOfPieces written), fillQuery_nil]
    rfl
  have led := resolve_cases r url
  rw [cut, pathPieces_pathOfPieces written] at led
  rcases led with ⟨none, -⟩ | ⟨c, chosen, led⟩
  · exact absurd (matches_iff.mpr filled.fits) (none t mem)
  · have first := chosen.firstFor? mem filled
    have same := (firstFor?_eq_some first).2
    rw [Pattern.taken_of_isLiteral (same ▸ filled.isLiteral_of_nil)] at led
    exact ⟨t, c, ht, first, led⟩

/-- In a table made from declarations that passes its check, the URL that a parent leads on to leads to the state at the
    end of the parent's default children exactly if no state of another name is declared before for the same path. -/
theorem redirect_settles_iff {mount : String} {release : Release} {ds : List Declaration}
    {defaults : List (String × String)} (h : (ofDeclarations mount release ds defaults).validate = .ok ())
    (hr : (ofDeclarations mount release ds defaults).resolve url = .ok (.redirect source target next)) :
    let r := ofDeclarations mount release ds defaults
    (∃ m, r.resolve next = .ok (.matched m) ∧ m.state = target) ↔
      ∃ t c, r.state? target = some t ∧ r.firstFor? t.pattern.segments = some c ∧ c.name = target := by
  intro r
  obtain ⟨t, c, ht, first, led⟩ := exists_firstFor?_of_redirect (plain_ofDeclarations mount release ds defaults) hr
  constructor
  · rintro ⟨m, hm, same⟩
    rw [led] at hm
    split at hm
    · next further _ =>
      rcases hf : (ofDeclarations mount release ds defaults).href further [] with e | last <;>
        rw [hf] at hm <;> cases hm
    · cases hm
      exact ⟨t, c, ht, first, same⟩
  · rintro ⟨t', c', ht', first', rfl⟩
    obtain rfl := Option.some.inj (ht.symm.trans ht')
    obtain rfl := Option.some.inj (first.symm.trans first')
    obtain ⟨-, -, -, hd, -⟩ := chosen_of_redirect hr
    rw [(valid_of_validate h).defaultTarget?_target hd] at led
    exact ⟨_, led, rfl⟩

/-- What a parent of two levels of default children leads on to leads to the lower one. -/
theorem redirect_settles_nested :
    (ofDeclarations "" ⟨"1.0"⟩ nested nestedDefaults).validate = .ok () ∧
    (ofDeclarations "" ⟨"1.0"⟩ nested nestedDefaults).resolve "/a?q=1" = .ok (.redirect "a" "a.b.c" "/a/b/c") ∧
    ∃ m, (ofDeclarations "" ⟨"1.0"⟩ nested nestedDefaults).resolve "/a/b/c" = .ok (.matched m) ∧ m.state = "a.b.c" := by
  have valid : (ofDeclarations "" ⟨"1.0"⟩ nested nestedDefaults).validate = .ok () := rfl
  have led : (ofDeclarations "" ⟨"1.0"⟩ nested nestedDefaults).resolve "/a?q=1" =
    .ok (.redirect "a" "a.b.c" "/a/b/c") := rfl
  exact ⟨valid, led, (redirect_settles_iff valid led).mpr ⟨_, _, rfl, rfl, rfl⟩⟩

/-- A parent whose default child adds nothing to its URL. -/
def idleChild : List Declaration := [⟨"a", "/a", "a", "a", none⟩, ⟨"a.b", "", "a", "b", none⟩]

/-- A parent with such a child leads on to its own URL, which leads on to itself for ever. -/
theorem exists_redirect_to_itself :
    (ofDeclarations "" ⟨"1.0"⟩ idleChild [("a", "a.b")]).validate = .ok () ∧
    (ofDeclarations "" ⟨"1.0"⟩ idleChild [("a", "a.b")]).resolve "//a" = .ok (.redirect "a" "a.b" "/a") ∧
    (ofDeclarations "" ⟨"1.0"⟩ idleChild [("a", "a.b")]).resolve "/a" = .ok (.redirect "a" "a.b" "/a") ∧
    ¬∃ m, (ofDeclarations "" ⟨"1.0"⟩ idleChild [("a", "a.b")]).resolve "/a" = .ok (.matched m) ∧ m.state = "a.b" := by
  refine ⟨rfl, rfl, rfl, ?_⟩
  rintro ⟨m, hm, -⟩
  cases hm

/-! ### Tables where every redirect settles -/

/-- Where states with one path have one name, the URL that a parent leads on to leads to the state at the end of its
    default children. -/
theorem Valid.settles (h : r.Valid) (plain : ∀ s ∈ r.states, s.pattern.Plain)
    (apart : ∀ s ∈ r.states, ∀ t ∈ r.states, s.pattern.segments = t.pattern.segments → s.name = t.name)
    (hr : r.resolve url = .ok (.redirect source target next)) :
    ∃ m, r.resolve next = .ok (.matched m) ∧ m.state = target := by
  obtain ⟨t, c, ht, first, led⟩ := exists_firstFor?_of_redirect plain hr
  obtain ⟨-, -, -, hd, -⟩ := chosen_of_redirect hr
  obtain ⟨mem, same⟩ := firstFor?_eq_some first
  obtain ⟨mem', named⟩ := state?_eq_some ht
  have name : c.name = target := (apart c mem t mem' same).trans named
  rw [name, h.defaultTarget?_target hd] at led
  exact ⟨_, led, rfl⟩

/-- So it does in the console's table. -/
theorem console_settles (mount : String) (release : Release)
    (hr : (console mount release).resolve url = .ok (.redirect source target next)) :
    ∃ m, (console mount release).resolve next = .ok (.matched m) ∧ m.state = target := by
  have table := console_unambiguous mount release
  obtain ⟨-, -, -, hd, hn⟩ := chosen_of_redirect hr
  obtain ⟨-, -, -, last⟩ := table.settles _ _ hd
  obtain ⟨t, found, -, settled, -⟩ := table.resolve_href hn last
  exact ⟨_, settled, rfl⟩

end Redirected
end Registry
end Navigation
end MfaConsole
