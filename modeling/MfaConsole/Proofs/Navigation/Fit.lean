import MfaConsole.Navigation.Registry
import MfaConsole.Proofs.KeyMap

/-! Which patterns fit a path, what they take from it, and which of the states that fit is chosen. -/

namespace MfaConsole
namespace Navigation

namespace Pattern

/-- The segments fit the pieces: there are as many, and a literal segment is its piece. -/
def fits : List Segment → List (List Char) → Bool
  | [], [] => true
  | .literal text :: ss, p :: ps => text.toList = p && fits ss ps
  | .parameter _ :: ss, _ :: ps => fits ss ps
  | _, _ => false

/-- The parameters with the texts that their pieces stand for, in the order of the segments. -/
def taken : List Segment → List (List Char) → List (String × String)
  | .literal _ :: ss, _ :: ps => taken ss ps
  | .parameter name :: ss, p :: ps => (name, String.ofList (Text.Percent.decodeChars p)) :: taken ss ps
  | _, _ => []

/-- Some path fits both lists of segments. -/
def overlap : List Segment → List Segment → Bool
  | [], [] => true
  | .literal a :: ss, .literal b :: ts => a = b && overlap ss ts
  | .literal _ :: ss, .parameter _ :: ts => overlap ss ts
  | .parameter _ :: ss, .literal _ :: ts => overlap ss ts
  | .parameter _ :: ss, .parameter _ :: ts => overlap ss ts
  | _, _ => false

/-- The names that a pattern declares: those of its parameters and those of its query. -/
def declared (p : Pattern) : List String :=
  (p.segments.filterMap fun s => match s with
    | .literal _ => none
    | .parameter name => some name) ++ p.queryNames

theorem mem_declared {p : Pattern} {name : String} :
    name ∈ p.declared ↔ Segment.parameter name ∈ p.segments ∨ name ∈ p.queryNames := by
  rw [declared, List.mem_append, List.mem_filterMap]
  refine or_congr_left ⟨?_, fun h => ⟨_, h, rfl⟩⟩
  rintro ⟨s, hs, h⟩
  cases s with
  | literal text => cases h
  | parameter x => exact Option.some.inj h ▸ hs

/-! ### What a pattern takes -/

/-- A pattern takes its parameters from the pieces it fits, the later ones over the earlier ones. -/
theorem bind?_eq : ∀ (ss : List Segment) (ps : List (List Char)) (found : KeyMap String),
    bind? ss ps found = if fits ss ps then some ((taken ss ps).foldl (fun m e => m.insert e.1 e.2) found) else none
  | [], [], _ => rfl
  | [], _ :: _, _ => rfl
  | .literal text :: ss, [], _ => rfl
  | .parameter _ :: ss, [], _ => rfl
  | .literal text :: ss, p :: ps, found => by
    rw [bind?, bind?_eq ss ps found, fits, taken]
    by_cases h : text.toList = p <;> simp [h]
  | .parameter name :: ss, p :: ps, found => by
    rw [bind?, bind?_eq ss ps, fits, taken, List.foldl_cons]

theorem match?_eq (p : Pattern) (pieces : List (List Char)) :
    p.match? pieces = if fits p.segments pieces then some (KeyMap.ofList (taken p.segments pieces)) else none :=
  bind?_eq p.segments pieces KeyMap.empty

theorem match?_eq_some_iff {p : Pattern} {pieces : List (List Char)} {params : KeyMap String} :
    p.match? pieces = some params ↔
      fits p.segments pieces = true ∧ params = KeyMap.ofList (taken p.segments pieces) := by
  rw [match?_eq]
  split
  · next h => simp [h, eq_comm (a := params)]
  · next h => simp [h]

theorem of_mem_taken {name value : String} {ss : List Segment} {ps : List (List Char)}
    (h : (name, value) ∈ taken ss ps) :
    Segment.parameter name ∈ ss ∧ ∃ p ∈ ps, value = String.ofList (Text.Percent.decodeChars p) := by
  fun_induction taken ss ps with
  | case1 text ss p ps ih =>
    obtain ⟨hs, q, hq, hv⟩ := ih h
    exact ⟨List.mem_cons_of_mem _ hs, q, List.mem_cons_of_mem _ hq, hv⟩
  | case2 x ss p ps ih =>
    rcases List.mem_cons.mp h with h | h
    · cases h
      exact ⟨List.mem_cons_self, p, List.mem_cons_self, rfl⟩
    · obtain ⟨hs, q, hq, hv⟩ := ih h
      exact ⟨List.mem_cons_of_mem _ hs, q, List.mem_cons_of_mem _ hq, hv⟩
  | case3 => cases h

theorem exists_mem_taken {name : String} {ss : List Segment} {ps : List (List Char)} (hf : fits ss ps = true)
    (h : Segment.parameter name ∈ ss) : ∃ value, (name, value) ∈ taken ss ps := by
  fun_induction fits ss ps with
  | case1 => cases h
  | case2 text ss p ps ih =>
    rw [Bool.and_eq_true] at hf
    exact ih hf.2 ((List.mem_cons.mp h).resolve_left (by simp))
  | case3 x ss p ps ih =>
    rcases List.mem_cons.mp h with h | h
    · cases h
      exact ⟨_, List.mem_cons_self⟩
    · obtain ⟨value, hv⟩ := ih hf h
      exact ⟨value, List.mem_cons_of_mem _ hv⟩
  | case4 => cases hf

theorem overlap_of_fits {ss ts : List Segment} {ps : List (List Char)} (hs : fits ss ps = true)
    (ht : fits ts ps = true) : overlap ss ts = true := by
  fun_induction fits ss ps generalizing ts with
  | case1 =>
    cases ts with
    | nil => rfl
    | cons t ts => cases t <;> cases ht
  | case2 text ss p ps ih =>
    rw [Bool.and_eq_true, decide_eq_true_eq] at hs
    match ts, ht with
    | .literal other :: ts, ht =>
      rw [fits, Bool.and_eq_true, decide_eq_true_eq] at ht
      have same : text = other := String.toList_inj.mp (hs.1.trans ht.1.symm)
      simp [overlap, same, ih hs.2 ht.2]
    | .parameter _ :: ts, ht => exact @ih ts hs.2 ht
  | case3 x ss p ps ih =>
    match ts, ht with
    | .literal _ :: ts, ht =>
      rw [fits, Bool.and_eq_true] at ht
      exact ih hs ht.2
    | .parameter _ :: ts, ht => exact @ih ts hs ht
  | case4 => cases hs

end Pattern

namespace Registry

/-! ### The choice -/

theorem mostSpecific?_eq_some {pieces : List (List Char)} {s : State} {params : KeyMap String} :
    ∀ {states : List State}, mostSpecific? pieces states = some (s, params) →
      s ∈ states ∧ s.pattern.match? pieces = some params
  | t :: ts, h => by
    have ih := @mostSpecific?_eq_some pieces s params ts
    rw [mostSpecific?] at h
    split at h
    · next best hbest =>
      exact ⟨List.mem_cons_of_mem _ (ih h).1, (ih h).2⟩
    · next found hfound _ =>
      cases h
      exact ⟨List.mem_cons_self, hfound⟩
    · next found best hfound hbest =>
      split at h
      · cases h
        exact ⟨List.mem_cons_self, hfound⟩
      · rw [hbest] at ih
        exact ⟨List.mem_cons_of_mem _ (ih h).1, (ih h).2⟩

theorem mostSpecific?_eq_none_iff {pieces : List (List Char)} :
    ∀ {states : List State}, mostSpecific? pieces states = none ↔ ∀ s ∈ states, s.pattern.match? pieces = none
  | [] => by simp [mostSpecific?]
  | t :: ts => by
    rw [mostSpecific?, List.forall_mem_cons, ← @mostSpecific?_eq_none_iff _ ts]
    split
    · next h => simp [h]
    · next h _ => simp [h]
    · next h _ => split <;> simp [h]

/-- The only state that fits is chosen. -/
theorem mostSpecific?_of_unique {pieces : List (List Char)} {states : List State} {s : State} (hs : s ∈ states)
    (hf : Pattern.fits s.pattern.segments pieces = true)
    (unique : ∀ t ∈ states, Pattern.fits t.pattern.segments pieces = true → t = s) :
    mostSpecific? pieces states = some (s, KeyMap.ofList (Pattern.taken s.pattern.segments pieces)) := by
  rcases h : mostSpecific? pieces states with _ | ⟨t, params⟩
  · have := mostSpecific?_eq_none_iff.mp h s hs
    rw [Pattern.match?_eq, if_pos hf] at this
    cases this
  · obtain ⟨ht, hm⟩ := mostSpecific?_eq_some h
    obtain ⟨hft, rfl⟩ := Pattern.match?_eq_some_iff.mp hm
    obtain rfl := unique t ht hft
    rfl

end Registry
end Navigation
end MfaConsole
