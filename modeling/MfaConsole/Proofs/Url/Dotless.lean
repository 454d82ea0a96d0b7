import MfaConsole.Proofs.Text.Escapes
import MfaConsole.Proofs.Url.Walk

/-! Which paths stay as they are when the dots are taken out of them: those without a segment of dots after their first
    slash, in which no other character counts as a slash. -/

namespace MfaConsole
namespace Url

variable {stays : List Char → Bool}

/-! ### Segments that stay -/

theorem foldl_enter_of_plain : ∀ {ss walked : List (List Char)}, (∀ s ∈ ss, isDots s = false) →
    ss.foldl (enter stays) walked = ss.reverse ++ walked
  | [], _, _ => rfl
  | s :: ss, walked, h => by
    have plain := h s List.mem_cons_self
    simp only [isDots, Bool.or_eq_false_iff] at plain
    have entered : enter stays walked s = s :: walked := by simp [enter, plain.1, plain.2]
    rw [List.foldl_cons, entered, foldl_enter_of_plain fun t ht => h t (List.mem_cons_of_mem _ ht)]
    simp

theorem isDots_of_mem_enter {s t : List Char} {walked : List (List Char)} (h : ∀ s ∈ walked, isDots s = false)
    (ht : t ∈ enter stays walked s) : isDots t = false := by
  rw [enter] at ht
  split at ht
  · exact h t (mem_above ht)
  · next below =>
    split at ht
    · exact h t ht
    · next further =>
      rcases List.mem_cons.mp ht with rfl | ht
      · simp [isDots, below, further]
      · exact h t ht

theorem isDots_of_mem_foldl_enter : ∀ {ss walked : List (List Char)}, (∀ s ∈ walked, isDots s = false) →
    ∀ s ∈ ss.foldl (enter stays) walked, isDots s = false
  | [], _, h => h
  | _ :: ss, _, h => @isDots_of_mem_foldl_enter ss _ fun _ ht => isDots_of_mem_enter h ht

theorem arrive_eq_self_iff {ss : List (List Char)} : arrive stays [] ss = ss ↔ ∀ s ∈ ss, isDots s = false := by
  constructor
  · intro h s hs
    rw [← h] at hs
    rcases List.mem_append.mp hs with hs | hs
    · exact isDots_of_mem_foldl_enter (fun _ hm => absurd hm List.not_mem_nil) s (List.mem_reverse.mp hs)
    · split at hs
      · rw [List.mem_singleton.mp hs]
        rfl
      · cases hs
  · intro h
    have last : ss.getLast?.any isDots = false := by
      cases hl : ss.getLast? with
      | none => rfl
      | some s => exact h s (List.mem_of_getLast? hl)
    rw [arrive, foldl_enter_of_plain h, last]
    simp

theorem withoutDots_eq_self_iff {ss : List (List Char)} : withoutDots ss = ss ↔ ∀ s ∈ ss, isDots s = false := by
  rw [withoutDots, walk_eq_arrive, arrive_eq_self_iff]

theorem slash_not_mem_withoutDots {ss : List (List Char)} (h : ∀ s ∈ ss, '/' ∉ s) : ∀ s ∈ withoutDots ss, '/' ∉ s := by
  intro s hs
  rw [withoutDots, walk_eq_arrive] at hs
  rcases mem_arrive hs with hs | hs | rfl
  · cases hs
  · exact h s hs
  · exact List.not_mem_nil

/-! ### Paths that stay -/

/-- A path without the dots among its segments. What stands before its first slash stays. -/
def dotless (k : Kind) (path : List Char) : List Char :=
  match segments k path with
  | [] => []
  | start :: ss => start ++ pathOf (withoutDots ss)

/-- Of a path from the root it is the path that a URL leads to. -/
theorem dotless_slash (k : Kind) (path : List Char) : dotless k ('/' :: path) = rooted k path := by
  have root : segments k ('/' :: path) = [] :: segments k path := by
    have slash : k.isSlash '/' = true := by cases k <;> rfl
    rw [segments, List.map_cons, if_pos slash]
    exact Text.pieces_cons_sep '/' _
  rw [dotless, root]
  rfl

/-- A path that stays as it is when the dots are taken out of it. -/
def Stays (k : Kind) (path : List Char) : Prop := dotless k path = path

theorem isSlash_of_mem_segments {k : Kind} {path s : List Char} (hs : s ∈ segments k path) {c : Char} (hc : c ∈ s) :
    k.isSlash c = false := by
  obtain ⟨noSlash, hm⟩ := Text.mem_of_mem_pieces hs c hc
  obtain ⟨d, -, rfl⟩ := List.mem_map.mp hm
  split at noSlash
  · exact absurd rfl noSlash
  · next other =>
    rw [if_neg other]
    exact Bool.eq_false_iff.mpr other

theorem eq_slash_of_mem_dotless {k : Kind} {path : List Char} {c : Char} (h : c ∈ dotless k path)
    (slash : k.isSlash c = true) : c = '/' := by
  rw [dotless] at h
  split at h
  · cases h
  · next start ss hs =>
    have own : ∀ s ∈ start :: ss, c ∉ s := fun s hm hc =>
      Bool.noConfusion (slash.symm.trans (isSlash_of_mem_segments (hs ▸ hm) hc))
    rcases List.mem_append.mp h with h | h
    · exact absurd h (own start List.mem_cons_self)
    · obtain ⟨s, hm, hc⟩ := List.mem_flatMap.mp h
      rw [withoutDots, walk_eq_arrive] at hm
      rcases List.mem_cons.mp hc with rfl | hc
      · rfl
      · rcases mem_arrive hm with hm | hm | rfl
        · cases hm
        · exact absurd hc (own s (List.mem_cons_of_mem _ hm))
        · cases hc

theorem segments_of_slashes {k : Kind} {path : List Char} (h : ∀ c ∈ path, k.isSlash c = true → c = '/') :
    segments k path = Text.pieces '/' path := by
  have same : path.map (fun c => if k.isSlash c then '/' else c) = path := by
    refine (List.map_congr_left fun c hc => ?_).trans (List.map_id path)
    split
    · next slash => exact (h c hc slash).symm
    · rfl
  rw [segments, same]

theorem pathOf_inj {as bs : List (List Char)} (ha : ∀ s ∈ as, '/' ∉ s) (hb : ∀ s ∈ bs, '/' ∉ s) :
    pathOf as = pathOf bs ↔ as = bs := by
  refine ⟨fun h => ?_, congrArg pathOf⟩
  have cut := congrArg (Text.pieces '/') h
  rw [pieces_pathOf ha, pieces_pathOf hb] at cut
  exact (List.cons.inj cut).2

theorem exists_start (path : List Char) :
    ∃ start ss, Text.pieces '/' path = start :: ss ∧ path = start ++ pathOf ss := by
  induction path with
  | nil => exact ⟨[], [], rfl, rfl⟩
  | cons c path ih =>
    obtain ⟨start, ss, hp, whole⟩ := ih
    by_cases hc : c = '/'
    · subst hc
      exact ⟨[], start :: ss, by rw [Text.pieces_cons_sep, hp], by rw [whole]; rfl⟩
    · exact ⟨c :: start, ss, Text.pieces_cons_ne hc hp, by rw [whole]; rfl⟩

/-- A path stays exactly if only slashes count as slashes in it, and no segment after the first of them is dots. -/
theorem stays_iff {k : Kind} {path : List Char} : Stays k path ↔
    (∀ c ∈ path, k.isSlash c = true → c = '/') ∧ ∀ s ∈ (Text.pieces '/' path).tail, isDots s = false := by
  -- Without other slashes the segments are the pieces, so that the path can be put together from them again.
  have cut (slashes : ∀ c ∈ path, k.isSlash c = true → c = '/') :
      Stays k path ↔ ∀ s ∈ (Text.pieces '/' path).tail, isDots s = false := by
    obtain ⟨start, ss, hp, whole⟩ := exists_start path
    have free : ∀ s ∈ ss, '/' ∉ s := fun s hs => Text.not_mem_of_mem_pieces (hp ▸ List.mem_cons_of_mem start hs)
    have taken : dotless k path = start ++ pathOf (withoutDots ss) := by
      rw [dotless, segments_of_slashes slashes, hp]
    calc Stays k path
      _ ↔ start ++ pathOf (withoutDots ss) = start ++ pathOf ss := by rw [Stays, taken, ← whole]
      _ ↔ withoutDots ss = ss := by rw [List.append_cancel_left_eq, pathOf_inj (slash_not_mem_withoutDots free) free]
      _ ↔ ∀ s ∈ (Text.pieces '/' path).tail, isDots s = false := by rw [withoutDots_eq_self_iff, hp, List.tail_cons]
  constructor
  · intro h
    have slashes : ∀ c ∈ path, k.isSlash c = true → c = '/' := fun c hc => eq_slash_of_mem_dotless (h.symm ▸ hc)
    exact ⟨slashes, (cut slashes).mp h⟩
  · rintro ⟨slashes, plain⟩
    exact (cut slashes).mpr plain

theorem pieces_append_pathOf {base : List Char} {ss : List (List Char)} (h : ∀ s ∈ ss, '/' ∉ s) :
    Text.pieces '/' (base ++ pathOf ss) = Text.pieces '/' base ++ ss := by
  cases ss with
  | nil => rw [show pathOf [] = [] from rfl, List.append_nil, List.append_nil]
  | cons s ss =>
    have cut := pieces_pathOf h
    rw [pathOf, List.flatMap_cons, List.cons_append, Text.pieces_cons_sep] at cut
    rw [pathOf, List.flatMap_cons, List.cons_append, Text.pieces_append_sep, (List.cons.inj cut).2]

/-- A segment that is no dots and holds no slash of any kind. -/
def Settled (k : Kind) (s : List Char) : Prop := isDots s = false ∧ ∀ c ∈ s, k.isSlash c = false

/-- A path that goes on from another one stays exactly if the other one does and the segments it goes on with are
    settled. -/
theorem stays_append_iff {k : Kind} {base : List Char} {ss : List (List Char)} (free : ∀ s ∈ ss, '/' ∉ s) :
    Stays k (base ++ pathOf ss) ↔ Stays k base ∧ ∀ s ∈ ss, Settled k s := by
  have tail : (Text.pieces '/' (base ++ pathOf ss)).tail = (Text.pieces '/' base).tail ++ ss := by
    rw [pieces_append_pathOf free, List.tail_append_of_ne_nil (Text.pieces_ne_nil _ _)]
  have slashes : (∀ c ∈ pathOf ss, k.isSlash c = true → c = '/') ↔ ∀ s ∈ ss, ∀ c ∈ s, k.isSlash c = false := by
    constructor
    · intro h s hs c hc
      refine Bool.eq_false_iff.mpr fun slash => free s hs ?_
      exact h c (List.mem_flatMap.mpr ⟨s, hs, List.mem_cons_of_mem _ hc⟩) slash ▸ hc
    · intro h c hc slash
      obtain ⟨s, hs, hc⟩ := List.mem_flatMap.mp hc
      rcases List.mem_cons.mp hc with rfl | hc
      · rfl
      · exact Bool.noConfusion (slash.symm.trans (h s hs c hc))
  rw [stays_iff, stays_iff, tail]
  simp only [Settled, List.forall_mem_append, slashes, forall_and]
  exact ⟨fun ⟨⟨a, b⟩, c, d⟩ => ⟨⟨a, c⟩, d, b⟩, fun ⟨⟨a, c⟩, d, b⟩ => ⟨⟨a, b⟩, c, d⟩⟩

/-! ### Texts that are read as dots -/

theorem eq_nil_of_plainDots {s : List Char} (h : plainDots s = []) : s = [] := by
  rw [plainDots.eq_def] at h
  split at h
  · split at h <;> cases h
  · cases h
  · rfl

/-- The ways to write one dot. -/
def dotForms : List (List Char) := [['.'], ['%', '2', 'e'], ['%', '2', 'E']]

theorem exists_dotForm {s t : List Char} (h : plainDots s = '.' :: t) :
    ∃ form ∈ dotForms, ∃ rest, s = form ++ rest ∧ plainDots rest = t := by
  rw [plainDots.eq_def] at h
  split at h
  · next e rest =>
    split at h
    · next he =>
      refine ⟨['%', '2', e], ?_, rest, rfl, (List.cons.inj h).2⟩
      rcases he with rfl | rfl <;> simp [dotForms]
    · cases (List.cons.inj h).1
  · next c rest _ =>
    obtain ⟨rfl, same⟩ := List.cons.inj h
    exact ⟨['.'], List.mem_cons_self, rest, rfl, same⟩
  · cases h

theorem mem_of_isDots {s : List Char} (h : isDots s = true) : '.' ∈ s ∨ '%' ∈ s := by
  have begins {t : List Char} (h : plainDots s = '.' :: t) : '.' ∈ s ∨ '%' ∈ s := by
    obtain ⟨form, hf, rest, rfl, -⟩ := exists_dotForm h
    have marked : ∀ form ∈ dotForms, '.' ∈ form ∨ '%' ∈ form := by decide
    exact (marked form hf).imp (List.mem_append_left rest) (List.mem_append_left rest)
  rw [isDots, Bool.or_eq_true, isAbove, isHere, beq_iff_eq, beq_iff_eq] at h
  rcases h with h | h <;> exact begins h

/-- Segments of dots stand for one dot or two, however they are written. -/
theorem decodeChars_of_isDots {s : List Char} (h : isDots s = true) :
    Text.Percent.decodeChars s = ['.'] ∨ Text.Percent.decodeChars s = ['.', '.'] := by
  have one : ∀ form ∈ dotForms, Text.Percent.decodeChars form = ['.'] := by decide +kernel
  have two : ∀ form ∈ dotForms, ∀ form' ∈ dotForms, Text.Percent.decodeChars (form ++ form') = ['.', '.'] := by
    decide +kernel
  rw [isDots, Bool.or_eq_true, isAbove, isHere, beq_iff_eq, beq_iff_eq] at h
  rcases h with h | h
  · obtain ⟨form, hf, rest, rfl, more⟩ := exists_dotForm h
    obtain ⟨form', hf', rest', rfl, none⟩ := exists_dotForm more
    obtain rfl := eq_nil_of_plainDots none
    rw [List.append_nil]
    exact Or.inr (two form hf form' hf')
  · obtain ⟨form, hf, rest, rfl, none⟩ := exists_dotForm h
    obtain rfl := eq_nil_of_plainDots none
    rw [List.append_nil]
    exact Or.inl (one form hf)

end Url
end MfaConsole
