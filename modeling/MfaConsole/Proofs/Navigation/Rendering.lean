import MfaConsole.Proofs.Navigation.Table

/-! What the URL shown for a state tells of it. A pattern is read back from its text exactly if it is legible, which is
    to say that nothing in it would be taken for a mark of the notation. Whatever is read is legible, and so is one
    legible pattern after another; hence the URL of a state determines its pattern, and the patterns that states have
    are the legible ones. -/

namespace MfaConsole
namespace Navigation
open Text

/-! ### Segments -/

namespace Segment

/-- A text that stands between braces. -/
def Braced (cs : List Char) : Prop := ∃ inner, cs = '\x7b' :: (inner ++ ['\x7d'])

/-- A literal segment can stand in a path and is not in braces; the name of a parameter holds nothing that would end the
    name, the segment or the path. It may hold braces. -/
def Legible : Segment → Prop
  | .literal text => Navigation.Plain text.toList ∧ ¬Braced text.toList
  | .parameter name => '/' ∉ name.toList ∧ '?' ∉ name.toList ∧ ':' ∉ name.toList

theorem enclosed?_eq_some_iff {cs inner : List Char} :
    enclosed? cs = some inner ↔ cs = '\x7b' :: (inner ++ ['\x7d']) := by
  constructor
  · intro h
    unfold enclosed? at h
    split at h
    · next rest =>
      split at h
      · next last =>
        obtain ⟨front, rfl⟩ := List.getLast?_eq_some_iff.mp last
        rw [List.dropLast_concat] at h
        rw [Option.some.inj h]
      · cases h
    · cases h
  · rintro rfl
    rw [enclosed?, List.getLast?_concat, if_pos rfl, List.dropLast_concat]

theorem enclosed?_eq_none_iff {cs : List Char} : enclosed? cs = none ↔ ¬Braced cs := by
  simp only [Option.eq_none_iff_forall_ne_some, Braced, not_exists, ne_eq, enclosed?_eq_some_iff]

theorem legible_ofPiece {piece : List Char} (h : Navigation.Plain piece) : (ofPiece piece).Legible := by
  obtain ⟨nonempty, slash, question⟩ := h
  cases he : enclosed? piece with
  | none =>
    rw [ofPiece, he, Legible, String.toList_ofList]
    exact ⟨⟨nonempty, slash, question⟩, enclosed?_eq_none_iff.mp he⟩
  | some inner =>
    obtain rfl := enclosed?_eq_some_iff.mp he
    -- The name is what stands before the first colon, so it holds none, and all of it comes from the piece.
    have within {c : Char} (hc : c ∈ (cutOrAll ':' inner).1) : c ∈ '\x7b' :: (inner ++ ['\x7d']) :=
      List.mem_cons_of_mem _ (List.mem_append_left _ (mem_of_mem_cutOrAll_fst hc))
    rw [ofPiece, he, Legible, String.toList_ofList]
    exact ⟨fun hc => slash (within hc), fun hc => question (within hc), not_mem_cutOrAll_fst inner⟩

theorem toList_render_parameter (name : String) :
    (render (.parameter name)).toList = '\x7b' :: (name.toList ++ ['\x7d']) := by
  simp [render]

variable {s : Segment}

theorem Legible.plain_render (h : s.Legible) : Navigation.Plain s.render.toList := by
  cases s with
  | literal text => exact h.1
  | parameter name =>
    rw [toList_render_parameter]
    refine ⟨List.cons_ne_nil _ _, ?_, ?_⟩
    · simpa using h.1
    · simpa using h.2.1

theorem Legible.ofPiece_render (h : s.Legible) : ofPiece s.render.toList = s := by
  cases s with
  | literal text =>
    have bare : enclosed? text.toList = none := enclosed?_eq_none_iff.mpr h.2
    rw [render, ofPiece, bare, String.ofList_toList]
  | parameter name =>
    have braced := enclosed?_eq_some_iff.mpr (toList_render_parameter name)
    simp only [ofPiece, braced, cutOrAll_of_not_mem h.2.2, String.ofList_toList]

end Segment

/-! ### Patterns -/

namespace Pattern

/-- A pattern of legible segments, whose query names are not empty and hold nothing that would end them. -/
structure Legible (p : Pattern) : Prop where
  segments : ∀ s ∈ p.segments, s.Legible
  queryNames : ∀ name ∈ p.queryNames, name ≠ "" ∧ '&' ∉ name.toList

theorem legible_parse (s : String) : (parse s).Legible where
  segments segment hm := by
    obtain ⟨piece, plain, rfl⟩ := mem_segments_parse hm
    exact Segment.legible_ofPiece plain
  queryNames name hm := by
    obtain ⟨piece, hp, rfl⟩ := List.mem_map.mp hm
    obtain ⟨mem, nonempty⟩ := List.mem_filter.mp hp
    rw [String.toList_ofList]
    exact ⟨fun he => of_decide_eq_true nonempty (String.ofList_eq_empty_iff.mp he), not_mem_of_mem_pieces mem⟩

theorem Legible.join {p q : Pattern} (hp : p.Legible) (hq : q.Legible) : (p.join q).Legible where
  segments s hm := (List.mem_append.mp hm).elim (hp.segments s) (hq.segments s)
  queryNames name hm := (List.mem_append.mp hm).elim (hp.queryNames name) (hq.queryNames name)

/-- What stands after the path in the text of a pattern. -/
def queryText (names : List String) : List Char :=
  if names = [] then [] else '?' :: joinWith ['&'] (names.map String.toList)

theorem toList_render (p : Pattern) :
    p.render.toList = pathOfPieces (p.segments.map fun s => s.render.toList) ++ queryText p.queryNames := by
  have path : (String.join (p.segments.map fun s => "/" ++ s.render)).toList =
      (p.segments.map fun s => s.render.toList).flatMap fun piece => '/' :: piece := by
    rw [String.toList_join, List.flatMap_map, List.flatMap_map]
    simp only [String.toList_append]
    rfl
  have query : ("&".intercalate p.queryNames).toList = joinWith ['&'] (p.queryNames.map String.toList) := by
    rw [String.toList_intercalate, joinWith_eq_intercalate]
    rfl
  rw [render, pathOfPieces, ← path, queryText]
  -- Both sides ask whether the path is empty, one of its text and the other of its characters.
  simp only [String.toList_eq_nil_iff]
  split <;> split <;> simp [query]

theorem cutOrAll_queryText {path : List Char} (h : '?' ∉ path) (names : List String) :
    cutOrAll '?' (path ++ queryText names) = (path, joinWith ['&'] (names.map String.toList)) := by
  rw [queryText]
  split
  · next none =>
    rw [none, List.append_nil, cutOrAll_of_not_mem h]
    rfl
  · exact cutOrAll_append h _

theorem names_joinWith {names : List String} (h : ∀ name ∈ names, name ≠ "" ∧ '&' ∉ name.toList) :
    ((pieces '&' (joinWith ['&'] (names.map String.toList))).filter (· ≠ [])).map String.ofList = names := by
  have apart : ∀ piece ∈ names.map String.toList, piece ≠ [] ∧ '&' ∉ piece :=
    List.forall_mem_map.mpr fun name hn => ⟨String.toList_eq_nil_iff.not.mpr (h name hn).1, (h name hn).2⟩
  have back : String.ofList ∘ String.toList = id := funext fun _ => String.ofList_toList
  rw [filter_pieces_joinWith apart, List.map_map, back, List.map_id]

theorem Legible.parse_render {p : Pattern} (h : p.Legible) : parse p.render = p := by
  have plain : ∀ piece ∈ p.segments.map fun s => s.render.toList, Navigation.Plain piece :=
    List.forall_mem_map.mpr fun s hs => (h.segments s hs).plain_render
  have segments : (p.segments.map fun s => s.render.toList).map Segment.ofPiece = p.segments := by
    rw [List.map_map]
    exact (List.map_congr_left fun s hs => (h.segments s hs).ofPiece_render).trans p.segments.map_id
  simp only [parse, ofChars, toList_render, cutOrAll_queryText (not_mem_pathOfPieces plain),
    pathPieces_pathOfPieces plain, segments, names_joinWith h.queryNames]

/-- A pattern is read back from its text exactly if it is legible. -/
theorem parse_render_iff {p : Pattern} : parse p.render = p ↔ p.Legible :=
  ⟨fun h => h ▸ legible_parse p.render, Legible.parse_render⟩

end Pattern

/-! ### States -/

namespace Registry

section Declared
variable {mount mount' : String} {release release' : Release} {ds ds' : List Declaration}
  {defaults defaults' : List (String × String)} {s t : State}

theorem legible_ofDeclarations (hs : s ∈ (ofDeclarations mount release ds defaults).states) : s.pattern.Legible :=
  pattern_induction mount release ds defaults Pattern.legible_parse Pattern.Legible.join s hs

/-- The patterns that states have are the legible ones. -/
theorem exists_pattern_iff {p : Pattern} :
    (∃ ds, ∃ s ∈ (ofDeclarations mount release ds defaults).states, s.pattern = p) ↔ p.Legible := by
  constructor
  · rintro ⟨ds, s, hs, rfl⟩
    exact legible_ofDeclarations hs
  · intro h
    refine ⟨[⟨"", p.render, "", "", none⟩], _, List.mem_singleton_self _, ?_⟩
    exact h.parse_render

/-- The URL shown for a state is read as the state's pattern, whatever the declarations of its table hold. So patterns
    of states of this or of another table that are shown alike are one pattern, and states with one URL match the same
    paths, with the same parameters, and take the same names from a query. -/
theorem url_determines_pattern (hs : s ∈ (ofDeclarations mount release ds defaults).states)
    (ht : t ∈ (ofDeclarations mount' release' ds' defaults').states) :
    Pattern.parse s.url = s.pattern ∧
    (s.pattern.render = t.pattern.render → s.pattern = t.pattern) ∧
    (s.url = t.url → (∀ path, s.pattern.match? (pathPieces path) = t.pattern.match? (pathPieces path)) ∧
      s.pattern.queryNames = t.pattern.queryNames) := by
  have readBack : Pattern.parse s.pattern.render = s.pattern := (legible_ofDeclarations hs).parse_render
  have readBack' : Pattern.parse t.pattern.render = t.pattern := (legible_ofDeclarations ht).parse_render
  have same (h : s.pattern.render = t.pattern.render) : s.pattern = t.pattern := by
    rw [← readBack, h, readBack']
  refine ⟨readBack, same, fun h => ?_⟩
  rw [same h]
  exact ⟨fun _ => rfl, rfl⟩

end Declared

/-- Declarations with braces that are not closed within a segment, a slash in what follows a colon, slashes one after
    the other, and query names that are empty or hold marks of the path. -/
def uneven : List Declaration :=
  [⟨"a", "//\x7bx:[0-9]+\x7d/\x7by:/.*\x7d?q?/r&&", "a", "a", none⟩, ⟨"a.b", "z\x7d//?&s:\x7b", "a", "b", none⟩]

/-- What these say together, as the declaration of one state. -/
def evened : List Declaration := [⟨"d", "\x7bx\x7d/\x7by:/.*\x7d/z\x7d/?q?/r&s:\x7b", "d", "d", none⟩]

theorem url_determines_pattern_uneven :
    ∃ s t, (ofDeclarations "" ⟨"1.0"⟩ uneven []).state? "a.b" = some s ∧
      (ofDeclarations "/pi" ⟨"2.0"⟩ evened []).state? "d" = some t ∧
      s.url = "/\x7bx\x7d/\x7by:/.*\x7d/z\x7d?q?/r&s:\x7b" ∧ s.url = t.url ∧ Pattern.parse s.url = s.pattern ∧
      s.pattern = ⟨[.parameter "x", .literal "\x7by:", .literal ".*\x7d", .literal "z\x7d"], ["q?/r", "s:\x7b"]⟩ ∧
      s.pattern = t.pattern ∧
      ∀ path, s.pattern.match? (pathPieces path) = t.pattern.match? (pathPieces path) := by
  have found : (ofDeclarations "" ⟨"1.0"⟩ uneven []).state? "a.b" = some _ := rfl
  have found' : (ofDeclarations "/pi" ⟨"2.0"⟩ evened []).state? "d" = some _ := rfl
  obtain ⟨readBack, same, alike⟩ := url_determines_pattern (state?_eq_some found).1 (state?_eq_some found').1
  exact ⟨_, _, found, found', rfl, rfl, readBack, rfl, same rfl, (alike rfl).1⟩

end Registry
end Navigation
end MfaConsole
