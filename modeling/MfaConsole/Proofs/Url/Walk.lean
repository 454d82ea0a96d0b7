import MfaConsole.Proofs.Text.Pieces
import MfaConsole.Url.Path

/-! Walking the segments of a path as a run of steps on a stack. What is walked after a place leads some way above
    that place and then down again; a trail keeps the two apart, so that what becomes of the place itself is seen.
    Readers of URLs differ in the segments that double dots do not remove, such as drives; which ones they are is a
    parameter here. -/

namespace MfaConsole
namespace Url

variable (stays : List Char → Bool)

def isDots (s : List Char) : Bool := isAbove s || isHere s

def above : (walked : List (List Char)) → List (List Char)
  | [] => []
  | s :: walked => if stays s then s :: walked else walked

/-- One segment further, from the segments walked, the last one first. -/
def enter (walked : List (List Char)) (s : List Char) : List (List Char) :=
  if isAbove s then above stays walked else if isHere s then walked else s :: walked

/-- The segments without dots, after those already walked, the last one first. Dots at the end leave a slash at the
    end. -/
def arrive (walked ss : List (List Char)) : List (List Char) :=
  (ss.foldl (enter stays) walked).reverse ++ if ss.getLast?.any isDots then [[]] else []

/-! ### A walk is a run of steps -/

theorem up_eq_above : ∀ walked : List (List Char), up walked = above isDrive walked
  | [] => rfl
  | _ :: _ => rfl

/-- Where drives are not removed, walking is a run of steps. -/
theorem walk_eq_arrive : ∀ walked ss : List (List Char), walk walked ss = arrive isDrive walked ss
  | walked, [] => by
    rw [walk, arrive]
    exact (List.append_nil _).symm
  | walked, [s] => by
    rw [walk, arrive, List.foldl_cons, List.foldl_nil, enter, up_eq_above]
    by_cases ha : isAbove s = true
    · simp [ha, isDots]
    · by_cases hh : isHere s = true <;> simp [ha, hh, isDots]
  | walked, s :: t :: rest => by
    have next : arrive isDrive walked (s :: t :: rest) = arrive isDrive (enter isDrive walked s) (t :: rest) := by
      rw [arrive, arrive, List.getLast?_cons_cons, List.foldl_cons]
    rw [walk, next, enter, up_eq_above]
    split
    · exact walk_eq_arrive _ _
    · split <;> exact walk_eq_arrive _ _

variable {stays}

theorem arrive_append {walked ss ts : List (List Char)} (h : ts ≠ []) :
    arrive stays walked (ss ++ ts) = arrive stays (ss.foldl (enter stays) walked) ts := by
  obtain ⟨t, ht⟩ : ∃ t, ts.getLast? = some t := ⟨_, List.getLast?_eq_some_getLast h⟩
  rw [arrive, arrive, List.foldl_append, List.getLast?_append, ht, Option.some_or]

theorem mem_above {s : List Char} {walked : List (List Char)} (h : s ∈ above stays walked) : s ∈ walked := by
  cases walked with
  | nil => cases h
  | cons t walked =>
    rw [above] at h
    split at h
    · exact h
    · exact List.mem_cons_of_mem _ h

theorem mem_foldl_enter {s : List Char} : ∀ {ss walked : List (List Char)}, s ∈ ss.foldl (enter stays) walked →
    s ∈ walked ∨ s ∈ ss
  | [], _, h => Or.inl h
  | t :: ss, walked, h => by
    rcases @mem_foldl_enter s ss _ h with h | h
    · rw [enter] at h
      split at h
      · exact Or.inl (mem_above h)
      · split at h
        · exact Or.inl h
        · rcases List.mem_cons.mp h with rfl | h
          · exact Or.inr List.mem_cons_self
          · exact Or.inl h
    · exact Or.inr (List.mem_cons_of_mem _ h)

theorem mem_arrive {s : List Char} {walked ss : List (List Char)} (h : s ∈ arrive stays walked ss) :
    s ∈ walked ∨ s ∈ ss ∨ s = [] := by
  rcases List.mem_append.mp h with h | h
  · exact (mem_foldl_enter (List.mem_reverse.mp h)).imp_right Or.inl
  · split at h
    · exact Or.inr (Or.inr (List.mem_singleton.mp h))
    · cases h

/-! ### Trails -/

/-- Where a walk from a base has led: how many of the base's segments have been left, and the segments entered since,
    the last one first. -/
structure Trail where
  left : Nat
  entered : List (List Char)

namespace Trail

variable (stays)

def start : Trail := ⟨0, []⟩

/-- One segment further. What stays is never left, whether it was entered or is one of the base's segments. -/
def step (base : List (List Char)) (t : Trail) (s : List Char) : Trail :=
  if isAbove s then
    match t.entered with
    | e :: es => if stays e then t else { t with entered := es }
    | [] => if (base.drop t.left).head?.any stays then t else { t with left := t.left + 1 }
  else if isHere s then t else { t with entered := s :: t.entered }

def ofSegments (base ss : List (List Char)) : Trail := ss.foldl (step stays base) start

def walked (base : List (List Char)) (t : Trail) : List (List Char) := t.entered ++ base.drop t.left

variable {stays}

theorem walked_step (base : List (List Char)) (t : Trail) (s : List Char) :
    (t.step stays base s).walked base = enter stays (t.walked base) s := by
  obtain ⟨left, entered⟩ := t
  rw [step, enter]
  split
  · cases entered with
    | cons e es =>
      simp only [walked, List.cons_append, above]
      split <;> rfl
    | nil =>
      simp only [walked, List.nil_append]
      cases hd : base.drop left with
      | nil =>
        have past : base.drop (left + 1) = [] := by
          rw [List.drop_eq_nil_iff] at hd ⊢
          omega
        simp [above, past]
      | cons b rest =>
        have next : base.drop (left + 1) = rest := by
          rw [← List.tail_drop, hd, List.tail_cons]
        by_cases hb : stays b = true
        · simp [above, hb, hd]
        · simp [above, hb, next]
  · split <;> rfl

/-- A walk from a base goes on from the base's segments as the trail says. -/
theorem walked_foldl (base : List (List Char)) : ∀ (ss : List (List Char)) (t : Trail),
    (ss.foldl (step stays base) t).walked base = ss.foldl (enter stays) (t.walked base)
  | [], _ => rfl
  | s :: ss, t => by
    rw [List.foldl_cons, walked_foldl base ss, walked_step, List.foldl_cons]

theorem walked_ofSegments (base ss : List (List Char)) :
    (ofSegments stays base ss).walked base = ss.foldl (enter stays) base := by
  rw [ofSegments, walked_foldl]
  rfl

/-- The walk ends below the base, at `first` or further down, if the segments entered begin with those of the base
    that were left, followed by `first`. The segments are compared by what `f` makes of them. -/
theorem cons_suffix_walked_iff {α : Type} {f : List Char → α} {base : List (List Char)} {first : List Char}
    {t : Trail} : (first :: base).map f <:+ (t.walked base).map f ↔
      (first :: base.take t.left).map f <:+ t.entered.map f := by
  have whole : first :: base = (first :: base.take t.left) ++ base.drop t.left := by
    rw [List.cons_append, List.take_append_drop]
  rw [whole, walked, List.map_append, List.map_append]
  constructor
  · rintro ⟨more, h⟩
    exact ⟨more, List.append_cancel_right (by rw [List.append_assoc, h])⟩
  · rintro ⟨more, h⟩
    exact ⟨more, by rw [← h, List.append_assoc]⟩

/-- Without double dots nothing is left, and the first segment stays the first one entered. -/
theorem ofSegments_of_not_isAbove {base ss : List (List Char)} {first : List Char} (hf : isDots first = false)
    (h : ∀ s ∈ ss, isAbove s = false) : (ofSegments stays base (first :: ss)).left = 0 ∧
      [first] <:+ (ofSegments stays base (first :: ss)).entered := by
  have begun : step stays base start first = ⟨0, [first]⟩ := by
    simp only [isDots, Bool.or_eq_false_iff] at hf
    simp [step, start, hf.1, hf.2]
  rw [ofSegments, List.foldl_cons, begun]
  -- Each further segment is entered above the first one, or is a single dot.
  suffices kept : ∀ (ss : List (List Char)) (t : Trail), (∀ s ∈ ss, isAbove s = false) → t.left = 0 →
      [first] <:+ t.entered →
      (ss.foldl (step stays base) t).left = 0 ∧ [first] <:+ (ss.foldl (step stays base) t).entered from
    kept ss _ h rfl (List.suffix_refl _)
  intro ss
  induction ss with
  | nil => exact fun t _ hl he => ⟨hl, he⟩
  | cons s ss ih =>
    intro t h hl he
    rw [List.foldl_cons]
    have next : step stays base t s = t ∨ step stays base t s = { t with entered := s :: t.entered } := by
      rw [step, if_neg (by simp [h s List.mem_cons_self])]
      split
      · exact Or.inl rfl
      · exact Or.inr rfl
    have rest : ∀ s ∈ ss, isAbove s = false := fun s hs => h s (List.mem_cons_of_mem _ hs)
    rcases next with next | next <;> rw [next]
    · exact ih t rest hl he
    · exact ih _ rest hl (he.trans (List.suffix_cons _ _))

end Trail

/-! ### Paths of segments -/

theorem pathOf_append (ss ts : List (List Char)) : pathOf (ss ++ ts) = pathOf ss ++ pathOf ts :=
  List.flatMap_append

theorem pieces_pathOf {ss : List (List Char)} (h : ∀ s ∈ ss, '/' ∉ s) : Text.pieces '/' (pathOf ss) = [] :: ss :=
  Text.pieces_flatMap h

theorem not_mem_segments {k : Kind} {path s : List Char} (h : s ∈ segments k path) : '/' ∉ s :=
  Text.not_mem_of_mem_pieces h

theorem segments_ne_nil (k : Kind) (path : List Char) : segments k path ≠ [] :=
  Text.pieces_ne_nil _ _

theorem segments_append (k : Kind) (as bs : List Char) :
    segments k (as ++ '/' :: bs) = segments k as ++ segments k bs := by
  have slash : k.isSlash '/' = true := by cases k <;> rfl
  rw [segments, List.map_append, List.map_cons, if_pos slash]
  exact Text.pieces_append_sep _ _ _

/-- A path goes on from another one exactly if its segments begin with those of the other. -/
theorem pathOf_eq_append_iff {as bs : List (List Char)} (ha : ∀ s ∈ as, '/' ∉ s) (hb : ∀ s ∈ bs, '/' ∉ s) :
    (∃ rest, (rest = [] ∨ rest.head? = some '/') ∧ pathOf bs = pathOf as ++ rest) ↔ as <+: bs := by
  constructor
  · rintro ⟨rest, hr, h⟩
    have cut := congrArg (Text.pieces '/') h
    rw [pieces_pathOf hb] at cut
    -- The rest begins a segment of its own, so that the segments of both sides agree.
    rcases hr with rfl | hr
    · rw [List.append_nil, pieces_pathOf ha] at cut
      exact (List.cons.inj cut).2 ▸ List.prefix_refl _
    · obtain ⟨more, rfl⟩ := List.head?_eq_some_iff.mp hr
      rw [Text.pieces_append_sep, pieces_pathOf ha, List.cons_append] at cut
      exact ⟨_, (List.cons.inj cut).2.symm⟩
  · rintro ⟨more, rfl⟩
    refine ⟨pathOf more, ?_, pathOf_append as more⟩
    cases more with
    | nil => exact Or.inl rfl
    | cons s ss => exact Or.inr rfl

theorem arrive_slash (base : List (List Char)) : arrive stays base [[]] = base.reverse ++ [[]] := by
  rw [arrive, List.foldl_cons, List.foldl_nil, enter, if_neg (by decide), if_neg (by decide), List.reverse_cons]
  exact List.append_nil _

theorem map_arrive {f : List Char → List Char} (hf0 : f [] = []) (base ss : List (List Char)) :
    (arrive stays base ss).map f =
      ((ss.foldl (enter stays) base).map f).reverse ++ if ss.getLast?.any isDots then [[]] else [] := by
  rw [arrive, List.map_append, List.map_reverse]
  congr 1
  split
  · rw [List.map_singleton, hf0]
  · rfl

/-- A walk leads to `first` below its base, or further down, if the segments walked say so. The path is written with
    what `f` makes of its segments. -/
theorem pathOf_arrive_iff {f : List Char → List Char} (hf : ∀ s, '/' ∉ s → '/' ∉ f s) (hf0 : f [] = [])
    {base ss : List (List Char)} {first : List Char} (hb : ∀ s ∈ base, '/' ∉ s) (hs : ∀ s ∈ ss, '/' ∉ s)
    (hn : f first ≠ []) (hp : '/' ∉ first) :
    (∃ rest, (rest = [] ∨ rest.head? = some '/') ∧ pathOf ((arrive stays base ss).map f) =
      pathOf ((arrive stays base [[]]).map f) ++ f first ++ rest) ↔
      (first :: base).map f <:+ (ss.foldl (enter stays) base).map f := by
  have below : pathOf ((arrive stays base [[]]).map f) ++ f first = pathOf ((first :: base).map f).reverse := by
    rw [arrive_slash, List.map_append, List.map_singleton, hf0, List.map_cons, List.reverse_cons, pathOf_append,
      pathOf_append, List.append_assoc, List.map_reverse]
    congr 1
    simp [pathOf]
  have baseClean : ∀ s ∈ ((first :: base).map f).reverse, '/' ∉ s := fun s hm => by
    obtain ⟨u, hu, rfl⟩ := List.mem_map.mp (List.mem_reverse.mp hm)
    rcases List.mem_cons.mp hu with rfl | hu
    · exact hf _ hp
    · exact hf _ (hb u hu)
  have endClean : ∀ s ∈ (arrive stays base ss).map f, '/' ∉ s := fun s hm => by
    obtain ⟨u, hu, rfl⟩ := List.mem_map.mp hm
    rcases mem_arrive hu with hu | hu | rfl
    · exact hf _ (hb u hu)
    · exact hf _ (hs u hu)
    · exact hf _ List.not_mem_nil
  rw [below, pathOf_eq_append_iff baseClean endClean, map_arrive hf0, ← List.reverse_prefix]
  -- A slash at the end is no segment that `first` could be.
  split
  · constructor
    · intro lead
      rcases List.prefix_concat_iff.mp lead with he | he
      · rw [List.map_cons, List.reverse_cons] at he
        exact absurd (List.append_inj_right' he rfl) (by simp [hn])
      · exact he
    · intro lead
      exact lead.trans (List.prefix_append _ _)
  · rw [List.append_nil]

end Url
end MfaConsole
