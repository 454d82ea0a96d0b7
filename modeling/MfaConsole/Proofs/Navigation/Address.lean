import MfaConsole.Proofs.Navigation.Fit
import MfaConsole.Proofs.Text.Pieces

/-! The URLs of states and the states of URLs undo each other, for every table whose states cannot be mistaken for one
    another; the table of the console is such a table. -/

namespace MfaConsole
namespace Navigation
open Text

/-! ### Written paths -/

/-- A text that stands in a path as one piece. -/
def Plain (p : List Char) : Prop := p ≠ [] ∧ '/' ∉ p ∧ '?' ∉ p

instance (p : List Char) : Decidable (Plain p) := inferInstanceAs (Decidable (_ ∧ _ ∧ _))

def Segment.Plain : Segment → Prop
  | .literal text => Navigation.Plain text.toList
  | .parameter _ => True

instance : DecidablePred Segment.Plain
  | .literal text => inferInstanceAs (Decidable (Navigation.Plain text.toList))
  | .parameter _ => .isTrue trivial

theorem plain_segmentChars {cs : List Char} (h : cs ≠ []) : Plain (Percent.segmentChars cs) := by
  refine ⟨Percent.segmentChars_ne_nil h, fun hm => ?_, fun hm => ?_⟩
  · exact absurd (Percent.segmentChar_of_mem hm).2.2 (by decide)
  · exact absurd (Percent.segmentChar_of_mem hm).2.2 (by decide)

/-- The path of the pieces; without pieces it is the root. -/
def pathOfPieces (pieces : List (List Char)) : List Char :=
  let path := pieces.flatMap fun p => '/' :: p
  if path = [] then ['/'] else path

theorem not_mem_pathOfPieces {pieces : List (List Char)} (h : ∀ p ∈ pieces, Plain p) : '?' ∉ pathOfPieces pieces := by
  rw [pathOfPieces]
  split
  · decide
  · intro hm
    obtain ⟨p, hp, hm⟩ := List.mem_flatMap.mp hm
    exact (h p hp).2.2 ((List.mem_cons.mp hm).resolve_left (by decide))

theorem pathPieces_pathOfPieces {pieces : List (List Char)} (h : ∀ p ∈ pieces, Plain p) :
    pathPieces (pathOfPieces pieces) = pieces := by
  have whole := pieces_flatMap fun p hp => (h p hp).2.1
  have kept : ([] :: pieces).filter (· ≠ []) = pieces := by
    rw [List.filter_cons, if_neg (by simp), List.filter_eq_self]
    exact fun p hp => decide_eq_true (h p hp).1
  rw [pathOfPieces]
  split
  · next he =>
    rw [he, pieces_nil] at whole
    exact (List.cons.inj whole).2
  · rw [pathPieces, whole, kept]

theorem plain_of_mem_pathPieces {path p : List Char} (h : p ∈ pathPieces path) : p ≠ [] := by
  obtain ⟨-, hp⟩ := List.mem_filter.mp h
  exact of_decide_eq_true hp

namespace Registry

/-! ### The URL of a state -/

theorem given?_eq (params : List (String × String)) (key : String) :
    given? params key = (params.lookup key).filter (· ≠ "") := rfl

theorem ne_empty_of_given? {params : List (String × String)} {key value : String} (h : given? params key = some value) :
    value ≠ "" := by
  have := (Option.filter_eq_some_iff.mp h).2
  exact of_decide_eq_true this

/-- The pieces that the segments become with the given parameters. -/
inductive Filled (params : List (String × String)) : List Segment → List (List Char) → Prop where
  | nil : Filled params [] []
  | literal {text : String} {ss : List Segment} {ps : List (List Char)} :
      Filled params ss ps → Filled params (.literal text :: ss) (text.toList :: ps)
  | parameter {name value : String} {ss : List Segment} {ps : List (List Char)} :
      given? params name = some value → Filled params ss ps →
        Filled params (.parameter name :: ss) (Percent.segmentChars value.toList :: ps)

variable {params : List (String × String)} {ss : List Segment} {ps : List (List Char)}

theorem Filled.fits (h : Filled params ss ps) : Pattern.fits ss ps = true := by
  induction h with
  | nil => rfl
  | literal _ ih => simp [Pattern.fits, ih]
  | parameter _ _ ih => exact ih

theorem Filled.plain (h : Filled params ss ps) (segments : ∀ s ∈ ss, s.Plain) : ∀ p ∈ ps, Plain p := by
  induction h with
  | nil => simp
  | literal _ ih =>
    rw [List.forall_mem_cons] at segments ⊢
    exact ⟨segments.1, ih segments.2⟩
  | parameter hv _ ih =>
    rw [List.forall_mem_cons] at segments ⊢
    refine ⟨plain_segmentChars fun he => ne_empty_of_given? hv ?_, ih segments.2⟩
    exact String.toList_eq_nil_iff.mp he

theorem Filled.taken (h : Filled params ss ps) {name value : String} (hm : (name, value) ∈ Pattern.taken ss ps) :
    given? params name = some value := by
  induction h with
  | nil => cases hm
  | literal _ ih => exact ih hm
  | parameter hv _ ih =>
    rcases List.mem_cons.mp hm with hm | hm
    · cases hm
      rw [Percent.decodeChars_segmentChars, String.ofList_toList]
      exact hv
    · exact ih hm

theorem exists_filled : ∀ {ss : List Segment},
    (∀ name, .parameter name ∈ ss → ∃ value, given? params name = some value) → ∃ ps, Filled params ss ps
  | [], _ => ⟨[], .nil⟩
  | .literal text :: ss, h => by
    obtain ⟨ps, hps⟩ := exists_filled fun name hn => h name (List.mem_cons_of_mem _ hn)
    exact ⟨_, .literal hps⟩
  | .parameter name :: ss, h => by
    obtain ⟨ps, hps⟩ := exists_filled fun name hn => h name (List.mem_cons_of_mem _ hn)
    obtain ⟨value, hv⟩ := h name List.mem_cons_self
    exact ⟨_, .parameter hv hps⟩

theorem fillPath_eq_ok_iff {name : String} {path : List Char} :
    fillPath name params ss = .ok path ↔ ∃ ps, Filled params ss ps ∧ path = ps.flatMap fun p => '/' :: p := by
  induction ss generalizing path with
  | nil =>
    constructor
    · intro h
      cases h
      exact ⟨[], .nil, rfl⟩
    · rintro ⟨ps, hps, rfl⟩
      cases hps
      rfl
  | cons s ss ih =>
    cases s with
    | literal text =>
      constructor
      · intro h
        rw [fillPath] at h
        rcases hr : fillPath name params ss with e | rest <;> rw [hr] at h
        · cases h
        · cases h
          obtain ⟨ps, hps, rfl⟩ := ih.mp hr
          exact ⟨_, .literal hps, rfl⟩
      · rintro ⟨_, hps, rfl⟩
        cases hps with
        | literal hps =>
          rw [fillPath, ih.mpr ⟨_, hps, rfl⟩]
          rfl
    | parameter x =>
      constructor
      · intro h
        rw [fillPath] at h
        split at h
        · cases h
        · next value hv =>
          rcases hr : fillPath name params ss with e | rest <;> rw [hr] at h
          · cases h
          · cases h
            obtain ⟨ps, hps, rfl⟩ := ih.mp hr
            exact ⟨_, .parameter hv hps, rfl⟩
      · rintro ⟨_, hps, rfl⟩
        cases hps with
        | parameter hv hps =>
          rw [fillPath, hv, ih.mpr ⟨_, hps, rfl⟩]
          rfl

/-- A state has a URL if each parameter of its path is given. -/
theorem href_eq_ok_iff {r : Registry} {name url : String} :
    r.href name params = .ok url ↔ ∃ s ps, r.state? name = some s ∧ Filled params s.pattern.segments ps ∧
      url = Form.withQuery (String.ofList (pathOfPieces ps)) (fillQuery params s.pattern.queryNames) := by
  rw [href]
  rcases hs : r.state? name with _ | s
  · simp
  · constructor
    · intro h
      rcases hp : fillPath name params s.pattern.segments with e | path <;> simp only [hp] at h <;> cases h
      obtain ⟨ps, hps, rfl⟩ := fillPath_eq_ok_iff.mp hp
      exact ⟨s, ps, rfl, hps, rfl⟩
    · rintro ⟨_, ps, hs', hps, rfl⟩
      cases hs'
      simp only [fillPath_eq_ok_iff.mpr ⟨ps, hps, rfl⟩]
      rfl

/-- A state that needs no parameter has a URL. -/
theorem exists_href_of_bare {r : Registry} {name : String} {s : State} (hs : r.state? name = some s)
    (bare : s.pattern.hasParameters = false) : ∃ url, r.href name [] = .ok url := by
  obtain ⟨ps, filled⟩ : ∃ ps, Filled [] s.pattern.segments ps := exists_filled fun x hx => by
    rw [Pattern.hasParameters, List.any_eq_false] at bare
    exact absurd (bare _ hx) (by simp [Segment.isLiteral])
  exact ⟨_, href_eq_ok_iff.mpr ⟨s, ps, hs, filled, rfl⟩⟩

/-! ### The state of a URL -/

/-- No path fits two states, no literal segment could be read as anything else, no name is declared both in the path
    and in the query, and the default children of a parent lead to a state that needs no parameter. -/
structure Unambiguous (r : Registry) : Prop where
  names : (r.states.map (·.name)).Nodup
  apart : r.states.Pairwise fun s t => Pattern.overlap s.pattern.segments t.pattern.segments = false
  plain : ∀ s ∈ r.states, ∀ segment ∈ s.pattern.segments, segment.Plain
  disjoint : ∀ s ∈ r.states, ∀ name ∈ s.pattern.queryNames, .parameter name ∉ s.pattern.segments
  settles : ∀ name target, r.defaultTarget? name = some target → ∃ s, r.state? target = some s ∧
    s.pattern.hasParameters = false ∧ r.defaultTarget? target = none

variable {r : Registry}

theorem state?_eq_some {name : String} {s : State} (h : r.state? name = some s) : s ∈ r.states ∧ s.name = name := by
  refine ⟨List.mem_of_find?_eq_some h, ?_⟩
  have := List.find?_some h
  exact of_decide_eq_true this

theorem find?_of_nodup {s : State} : ∀ {states : List State}, (states.map (·.name)).Nodup → s ∈ states →
    find? states s.name = some s
  | t :: ts, names, hs => by
    rw [List.map_cons, List.nodup_cons] at names
    rw [find?, List.find?_cons]
    rcases List.mem_cons.mp hs with rfl | hs
    · simp
    · have hne : t.name ≠ s.name := fun he => names.1 (he ▸ List.mem_map_of_mem hs)
      simp only [hne, decide_false]
      exact find?_of_nodup names.2 hs

theorem Unambiguous.state?_name (h : r.Unambiguous) {s : State} (hs : s ∈ r.states) : r.state? s.name = some s :=
  find?_of_nodup h.names hs

/-- Where no path fits two states, a path leads to at most one. -/
theorem eq_of_fits {s t : State} {pieces : List (List Char)} (hfs : Pattern.fits s.pattern.segments pieces = true)
    (hft : Pattern.fits t.pattern.segments pieces = true) : ∀ {states : List State},
    (states.Pairwise fun s t => Pattern.overlap s.pattern.segments t.pattern.segments = false) → s ∈ states →
      t ∈ states → s = t
  | u :: us, apart, hs, ht => by
    rw [List.pairwise_cons] at apart
    rcases List.mem_cons.mp hs with hsu | hsu <;> rcases List.mem_cons.mp ht with htu | htu
    · exact hsu.trans htu.symm
    · exact absurd (Pattern.overlap_of_fits hfs hft) (by simp [hsu, apart.1 t htu])
    · exact absurd (Pattern.overlap_of_fits hft hfs) (by simp [htu, apart.1 s hsu])
    · exact eq_of_fits hfs hft apart.2 hsu htu

/-- The URL that is written for a state and pieces that fit it leads to that state. -/
theorem Unambiguous.resolve_written (h : r.Unambiguous) {s : State} (hs : s ∈ r.states) {pieces : List (List Char)}
    (plain : ∀ p ∈ pieces, Plain p) (hf : Pattern.fits s.pattern.segments pieces = true)
    (pairs : List (String × String)) :
    r.resolve (Form.withQuery (String.ofList (pathOfPieces pieces)) pairs) =
      match r.defaultTarget? s.name with
      | some target => (r.href target []).map fun url => .redirect s.name target url
      | none => .ok (.matched ⟨s.name, s.controller,
          takeQuery s.pattern.queryNames pairs (KeyMap.ofList (Pattern.taken s.pattern.segments pieces))⟩) := by
  have chosen := mostSpecific?_of_unique hs hf fun t ht hft => eq_of_fits hft hf h.apart ht hs
  rw [resolve, cutOrAll_withQuery (not_mem_pathOfPieces plain)]
  dsimp only
  rw [pathPieces_pathOfPieces plain, chosen]
  dsimp only
  cases r.defaultTarget? s.name with
  | some target => rfl
  | none =>
    dsimp only
    rw [Form.readChars_queryChars]

/-! ### What a URL holds -/

theorem lookup_fillQuery (params : List (String × String)) (k : String) : ∀ names : List String,
    (fillQuery params names).lookup k = if k ∈ names then given? params k else none
  | [] => rfl
  | name :: names => by
    have ih := lookup_fillQuery params k names
    rw [fillQuery] at ih ⊢
    rw [List.filterMap_cons]
    by_cases hk : k = name
    · subst hk
      rcases hg : given? params k with _ | value
      · simp [ih, hg]
      · simp
    · rcases hg : given? params name with _ | value
      · simp [ih, hk]
      · simp [KeyMap.lookup_cons, ih, hk]

theorem get?_takeQuery (names : List String) (query : List (String × String)) (found : KeyMap String) (k : String) :
    (takeQuery names query found).get? k =
      ((query.filter fun q => names.contains q.1).reverse.lookup k).or (found.get? k) :=
  KeyMap.get?_foldl_insert k _ found

/-- What is read back from a query is what was given for its names. -/
theorem get?_takeQuery_fillQuery (names : List String) (params : List (String × String)) (found : KeyMap String)
    (k : String) : (takeQuery names (fillQuery params names) found).get? k =
      (if k ∈ names then given? params k else none).or (found.get? k) := by
  have kept : (fillQuery params names).filter (fun q => names.contains q.1) = fillQuery params names := by
    rw [List.filter_eq_self]
    intro q hq
    obtain ⟨name, hn, hq⟩ := List.mem_filterMap.mp hq
    obtain ⟨value, -, rfl⟩ := Option.map_eq_some_iff.mp hq
    simpa using hn
  have turned : (fillQuery params names).reverse = fillQuery params names.reverse := by
    rw [fillQuery, fillQuery, List.filterMap_reverse]
  rw [get?_takeQuery, kept, turned, lookup_fillQuery]
  simp

theorem get?_taken (h : Filled params ss ps) (k : String) :
    (KeyMap.ofList (Pattern.taken ss ps)).get? k = if .parameter k ∈ ss then given? params k else none := by
  rw [KeyMap.get?_ofList]
  split
  · next hk =>
    obtain ⟨value, hv⟩ := Pattern.exists_mem_taken h.fits hk
    rcases hl : (Pattern.taken ss ps).reverse.lookup k with _ | found
    · have := List.lookup_eq_none_iff.mp hl (k, value) (List.mem_reverse.mpr hv)
      simp at this
    · exact (h.taken (List.mem_reverse.mp (KeyMap.mem_of_lookup hl))).symm
  · next hk =>
    rw [List.lookup_eq_none_iff]
    rintro ⟨name, value⟩ hm
    exact bne_iff_ne.mpr fun he => hk (he ▸ (Pattern.of_mem_taken (List.mem_reverse.mp hm)).1)

/-! ### Both ways -/

/-- The URL of a state without a default child leads back to it, with what was given for the names it declares. -/
theorem Unambiguous.resolve_href (h : r.Unambiguous) {name url : String} (hu : r.href name params = .ok url)
    (hd : r.defaultTarget? name = none) : ∃ s found, r.state? name = some s ∧
      r.resolve url = .ok (.matched ⟨name, s.controller, found⟩) ∧
      ∀ k, found.get? k = if k ∈ s.pattern.declared then given? params k else none := by
  obtain ⟨s, ps, hs, filled, rfl⟩ := href_eq_ok_iff.mp hu
  obtain ⟨hm, rfl⟩ := state?_eq_some hs
  have resolved := h.resolve_written hm (filled.plain (h.plain s hm)) filled.fits
    (fillQuery params s.pattern.queryNames)
  simp only [hd] at resolved
  refine ⟨s, _, hs, resolved, fun k => ?_⟩
  rw [get?_takeQuery_fillQuery, get?_taken filled]
  simp only [Pattern.mem_declared]
  by_cases hq : k ∈ s.pattern.queryNames <;> by_cases hp : Segment.parameter k ∈ s.pattern.segments <;> simp [hq, hp]

/-- The URL of a parent with a default child leads on to a URL which leads to the state at the end of its default
    children. -/
theorem Unambiguous.resolve_href_parent (h : r.Unambiguous) {name url target : String}
    (hu : r.href name params = .ok url) (hd : r.defaultTarget? name = some target) : ∃ next m,
      r.resolve url = .ok (.redirect name target next) ∧ r.resolve next = .ok (.matched m) ∧ m.state = target := by
  obtain ⟨s, ps, hs, filled, rfl⟩ := href_eq_ok_iff.mp hu
  obtain ⟨hm, rfl⟩ := state?_eq_some hs
  have resolved := h.resolve_written hm (filled.plain (h.plain s hm)) filled.fits
    (fillQuery params s.pattern.queryNames)
  obtain ⟨t, ht, bare, last⟩ := h.settles _ _ hd
  obtain ⟨next, hn⟩ := exists_href_of_bare ht bare
  simp only [hd, hn] at resolved
  obtain ⟨u, found, -, settled, -⟩ := h.resolve_href hn last
  exact ⟨_, _, resolved, settled, rfl⟩

theorem mem_declared_of_get? {s : State} {pieces : List (List Char)} {query : List (String × String)} {k value : String}
    (h : (takeQuery s.pattern.queryNames query (KeyMap.ofList (Pattern.taken s.pattern.segments pieces))).get? k =
      some value) : k ∈ s.pattern.declared := by
  rw [get?_takeQuery, KeyMap.get?_ofList, Option.or_eq_some_iff] at h
  rw [Pattern.mem_declared]
  rcases h with h | ⟨-, h⟩
  · have := (List.mem_filter.mp (List.mem_reverse.mp (KeyMap.mem_of_lookup h))).2
    exact Or.inr (List.contains_iff_mem.mp this)
  · exact Or.inl (Pattern.of_mem_taken (List.mem_reverse.mp (KeyMap.mem_of_lookup h))).1

/-- What a URL gives for a parameter of its path is not empty, for a piece of a path never is. -/
theorem exists_given?_of_parameter {s : State} {path : List Char} (query : List (String × String)) {x : String}
    (hf : Pattern.fits s.pattern.segments (pathPieces path) = true) (hx : .parameter x ∈ s.pattern.segments)
    (hq : x ∉ s.pattern.queryNames) : ∃ value, given? (takeQuery s.pattern.queryNames query
      (KeyMap.ofList (Pattern.taken s.pattern.segments (pathPieces path)))).entries x = some value := by
  have unasked : (query.filter fun q => s.pattern.queryNames.contains q.1).reverse.lookup x = none := by
    rw [List.lookup_eq_none_iff]
    intro q hm
    have := (List.mem_filter.mp (List.mem_reverse.mp hm)).2
    exact bne_iff_ne.mpr fun he => hq (he ▸ List.contains_iff_mem.mp this)
  rw [given?_eq]
  show ∃ value, ((takeQuery _ _ _).get? x).filter _ = some value
  rw [get?_takeQuery, unasked, Option.none_or, KeyMap.get?_ofList]
  obtain ⟨some', hs⟩ := Pattern.exists_mem_taken hf hx
  rcases hl : (Pattern.taken s.pattern.segments (pathPieces path)).reverse.lookup x with _ | value
  · have := List.lookup_eq_none_iff.mp hl (x, some') (List.mem_reverse.mpr hs)
    simp at this
  · obtain ⟨-, p, hp, rfl⟩ := Pattern.of_mem_taken (List.mem_reverse.mp (KeyMap.mem_of_lookup hl))
    have := Percent.decodeChars_ne_nil (plain_of_mem_pathPieces hp)
    exact ⟨_, Option.filter_eq_some_iff.mpr ⟨rfl, by simpa using this⟩⟩

/-- A state that a URL leads to has a URL with the same parameters, which leads to the same state and parameters but
    for those without a value. -/
theorem Unambiguous.href_resolve (h : r.Unambiguous) {url : String} {m : StateMatch}
    (hr : r.resolve url = .ok (.matched m)) : ∃ again, r.href m.state m.params.entries = .ok again ∧
      r.resolve again = .ok (.matched { m with params := m.params.filterValues (· ≠ "") }) := by
  simp only [resolve] at hr
  split at hr
  · cases hr
  · next s found chosen =>
    obtain ⟨hs, hm⟩ := mostSpecific?_eq_some chosen
    obtain ⟨hf, rfl⟩ := Pattern.match?_eq_some_iff.mp hm
    split at hr
    · rcases hh : r.href _ [] with e | next <;> rw [hh] at hr <;> cases hr
    · next hd =>
      cases hr
      obtain ⟨ps, filled⟩ := exists_filled fun x hx =>
        exists_given?_of_parameter (Form.readChars (cutOrAll '?' url.toList).2) hf hx
          fun hq => h.disjoint s hs x hq hx
      have again := href_eq_ok_iff.mpr ⟨s, ps, h.state?_name hs, filled, rfl⟩
      refine ⟨_, again, ?_⟩
      obtain ⟨t, found, ht, resolved, holds⟩ := h.resolve_href again hd
      obtain rfl := Option.some.inj ((h.state?_name hs).symm.trans ht)
      rw [resolved]
      have same : found = KeyMap.filterValues (· ≠ "") _ := KeyMap.ext_get? fun k => by
        rw [holds k, KeyMap.get?_filterValues]
        split
        · rfl
        · next hk =>
          refine (Option.filter_eq_none_iff.mpr fun value hv => ?_).symm
          exact absurd (mem_declared_of_get? hv) hk
      rw [same]

/-! ### The table of the console -/

/-- The patterns of the console's states in full. -/
def consolePatterns : List (String × Pattern) :=
  [("component", ⟨[.literal "component"], []⟩),
   ("component.clienttype", ⟨[.literal "component", .literal "clienttype"], []⟩),
   ("machine", ⟨[.literal "machine"], []⟩),
   ("machine.list", ⟨[.literal "machine", .literal "list"], ["resolver"]⟩),
   ("machine.details",
     ⟨[.literal "machine", .literal "details", .parameter "machineid", .parameter "machineresolver"], []⟩),
   ("recovery", ⟨[.literal "recovery"], []⟩),
   ("reset", ⟨[.literal "reset", .parameter "user", .parameter "recoverycode"], []⟩),
   ("config", ⟨[.literal "config"], []⟩),
   ("config.edumfaserver", ⟨[.literal "config", .literal "edumfaserver"], []⟩),
   ("config.edumfaserver.list", ⟨[.literal "config", .literal "edumfaserver", .literal "list"], []⟩),
   ("config.edumfaserver.new", ⟨[.literal "config", .literal "edumfaserver", .literal "new"], []⟩),
   ("config.edumfaserver.edit",
     ⟨[.literal "config", .literal "edumfaserver", .literal "edit", .parameter "identifier"], []⟩)]

variable (mount : String) (release : Release)

theorem console_patterns : (console mount release).states.map (fun s => (s.name, s.pattern)) = consolePatterns := by
  rfl

theorem mem_consolePatterns {s : State} (hs : s ∈ (console mount release).states) :
    (s.name, s.pattern) ∈ consolePatterns := by
  rw [← console_patterns mount release]
  exact List.mem_map_of_mem hs

theorem console_unambiguous : (console mount release).Unambiguous where
  names := by
    have same : (console mount release).states.map (·.name) = consolePatterns.map Prod.fst := by
      rw [← console_patterns mount release, List.map_map]
      exact List.map_congr_left fun _ _ => rfl
    rw [same]
    decide
  apart := by
    have : consolePatterns.Pairwise fun a b => Pattern.overlap a.2.segments b.2.segments = false := by decide
    rw [← console_patterns mount release, List.pairwise_map] at this
    exact this
  plain s hs segment hm := by
    have : ∀ a ∈ consolePatterns, ∀ segment ∈ a.2.segments, segment.Plain := by decide
    exact this _ (mem_consolePatterns mount release hs) segment hm
  disjoint s hs name hn hp := by
    have : ∀ a ∈ consolePatterns, ∀ name ∈ a.2.queryNames, .parameter name ∉ a.2.segments := by decide
    exact this _ (mem_consolePatterns mount release hs) name hn hp
  settles name target h := by
    obtain ⟨child, hc, rfl⟩ := Option.map_eq_some_iff.mp h
    rw [show (console mount release).defaultChild? name = (KeyMap.ofList defaultChildren).get? name from rfl,
      KeyMap.get?_ofList] at hc
    have hm := List.mem_reverse.mp (KeyMap.mem_of_lookup hc)
    simp only [defaultChildren, List.mem_cons, List.not_mem_nil, or_false] at hm
    rcases hm with hm | hm | hm | hm <;> cases hm <;> exact ⟨_, rfl, rfl, rfl⟩

/-- In the console's table, URLs of states and states of URLs undo each other. A URL written for a state leads to it
    with what was given for the names it declares, of several pairs of a name the first one, or for a parent on to the
    end of its default children. A state that a URL leads to has a URL with the same parameters, which leads to it
    again with those of its parameters that are not empty. -/
theorem console_href_resolve :
    (∀ name params url, (console mount release).href name params = .ok url →
      ∃ s, (console mount release).state? name = some s ∧
        ((console mount release).defaultChild? name = none → ∃ found,
          (console mount release).resolve url = .ok (.matched ⟨name, s.controller, found⟩) ∧
          ∀ k, found.get? k = if k ∈ s.pattern.declared then (params.lookup k).filter (· ≠ "") else none) ∧
        ((console mount release).defaultChild? name ≠ none → ∃ target next m,
          (console mount release).resolve url = .ok (.redirect name target next) ∧
          (console mount release).resolve next = .ok (.matched m) ∧ m.state = target)) ∧
    (∀ url m, (console mount release).resolve url = .ok (.matched m) →
      ∃ again, (console mount release).href m.state m.params.entries = .ok again ∧
        (console mount release).resolve again =
          .ok (.matched { m with params := m.params.filterValues (· ≠ "") })) := by
  have table := console_unambiguous mount release
  refine ⟨fun name params url hu => ?_, fun url m hm => table.href_resolve hm⟩
  obtain ⟨s, ps, hs, -⟩ := href_eq_ok_iff.mp hu
  refine ⟨s, hs, fun hd => ?_, fun hd => ?_⟩
  · obtain ⟨t, found, ht, resolved, holds⟩ := table.resolve_href hu (by rw [defaultTarget?, hd]; rfl)
    obtain rfl := Option.some.inj (hs.symm.trans ht)
    exact ⟨found, resolved, holds⟩
  · obtain ⟨child, hc⟩ := Option.ne_none_iff_exists'.mp hd
    obtain ⟨next, m, redirected, settled, reached⟩ := table.resolve_href_parent hu (by rw [defaultTarget?, hc]; rfl)
    exact ⟨_, next, m, redirected, settled, reached⟩

/-- The machine `a/b` of the resolver `ü?%`, and the list of machines of no resolver. -/
theorem console_href_resolve_escaped :
    (console "" ⟨"1.0"⟩).href "machine.details" [("machineid", "a/b"), ("machineresolver", "ü?%")] =
        .ok "/machine/details/a%2Fb/%C3%BC%3F%25" ∧
    (∃ found, (console "" ⟨"1.0"⟩).resolve "/machine/details/a%2Fb/%C3%BC%3F%25" =
        .ok (.matched ⟨"machine.details", some .machineDetails, found⟩) ∧
      found.get? "machineid" = some "a/b" ∧ found.get? "machineresolver" = some "ü?%" ∧
      found.get? "resolver" = none) ∧
    ∃ again, (console "" ⟨"1.0"⟩).href "machine.list" [("resolver", "")] = .ok again ∧
      (console "" ⟨"1.0"⟩).resolve again = .ok (.matched ⟨"machine.list", none, KeyMap.empty⟩) := by
  obtain ⟨written, read⟩ := console_href_resolve "" ⟨"1.0"⟩
  obtain ⟨s, hs, led, -⟩ := written "machine.details" [("machineid", "a/b"), ("machineresolver", "ü?%")]
    "/machine/details/a%2Fb/%C3%BC%3F%25" rfl
  obtain ⟨found, resolved, holds⟩ := led rfl
  obtain rfl : _ = s := Option.some.inj hs
  refine ⟨rfl, ⟨found, resolved, holds _, holds _, holds _⟩, ?_⟩
  exact read "/machine/list?resolver=" ⟨"machine.list", none, ⟨[("resolver", "")], by simp⟩⟩ rfl

end Registry
end Navigation
end MfaConsole
