import Mathlib.Data.List.TakeDrop
import MfaConsole.Proofs.Url.Walk
import MfaConsole.Url.Reference

/-! What a client requests of a URL with a host. It walks the segments of the path from the root; where the URL goes on
    after a slash, it walks those of the first part and then those of what follows, unless a query began before. -/

namespace MfaConsole
namespace Url

def requestSchemes : List String := ["http", "https"]

/-- What follows the scheme of a URL and the slashes after it. -/
def hosted? (url : List Char) : Option (List Char) :=
  (scheme? url).bind fun s => if requestSchemes.contains s.1 then some (s.2.dropWhile Kind.web.isSlash) else none

def afterHost (cs : List Char) : List Char := cs.dropWhile fun c => !Kind.web.isSlash c

/-- The path that is requested of a URL, before anything in it is escaped. Without a host there is none. -/
def requested? (stays : List Char → Bool) (url : List Char) : Option (List Char) :=
  match hosted? (beforeQuery (clean url)) with
  | none | some [] => none
  | some (c :: cs) => some (pathOf (arrive stays [] (segments .web ((afterHost (c :: cs)).drop 1))))

def endsPath (c : Char) : Bool := c == '?' || c == '#'

def kept (cs : List Char) : List Char := cs.filter fun c => !isIgnored c

/-- The first part of a URL without what counts for nothing. -/
def front (base : List Char) : List Char := kept (base.dropWhile isPadding)

/-- The segments that the path of the first part of a URL leads to, the last one first. -/
def place (stays : List Char → Bool) (base : List Char) : List (List Char) :=
  match afterHost ((hosted? (front base)).getD []) with
  | [] => []
  | _ :: path => (segments .web path).foldl (enter stays) []

variable {stays : List Char → Bool}

/-- A site reads a URL as leading to the path requested of it, but for one in the scheme of the site that is written
    without a host. -/
theorem pathFromRoot_of_requested? {url path : List Char} (h : requested? isDrive url = some path) :
    ∃ name rest, scheme? (beforeQuery (clean url)) = some (name, rest) ∧
      (pathFromRoot url = path ∨ name = siteScheme ∧ slashes rest < 2) := by
  rw [requested?] at h
  split at h
  · cases h
  · cases h
  · next c cs hh =>
    obtain ⟨⟨name, rest⟩, hs, hn⟩ := Option.bind_eq_some_iff.mp hh
    refine ⟨name, rest, hs, ?_⟩
    split at hn
    · next hk =>
      have web : Kind.ofScheme name = .web := by
        simp only [requestSchemes, List.contains_iff_mem, List.mem_cons, List.not_mem_nil, or_false] at hk
        rcases hk with rfl | rfl <;> rfl
      by_cases two : name = siteScheme ∧ slashes rest < 2
      · exact Or.inr two
      · refine Or.inl ?_
        rw [pathFromRoot, hs]
        simp only [web]
        rw [ofWeb, if_neg two, Option.some.inj hn, ← Option.some.inj h, afterSlashes, afterHost]
        cases (c :: cs).dropWhile fun c => !Kind.web.isSlash c with
        | nil => rw [pathAfterHost, if_neg (by decide), rooted, withoutDots, walk_eq_arrive, List.drop_nil]
        | cons d path => rw [pathAfterHost, rooted, withoutDots, walk_eq_arrive, List.drop_one, List.tail_cons]
    · cases hn

/-! ### Cleaning -/

theorem dropEndWhile_append {p : Char → Bool} {c : Char} (hc : p c = false) (as bs : List Char) :
    Text.dropEndWhile p (as ++ c :: bs) = as ++ c :: Text.dropEndWhile p bs := by
  have turned : (as ++ c :: bs).reverse = bs.reverse ++ c :: as.reverse := by simp
  rw [Text.dropEndWhile, Text.dropEndWhile, turned, List.dropWhile_append]
  split
  · next h =>
    rw [List.isEmpty_iff] at h
    rw [h, List.dropWhile_cons, if_neg (by simp [hc])]
    simp
  · simp

theorem clean_of_head {cs : List Char} (h : ∀ c ∈ cs.head?, isPadding c = false) :
    clean cs = kept (Text.dropEndWhile isPadding cs) := by
  cases cs with
  | nil => rfl
  | cons c cs =>
    rw [clean, List.dropWhile_cons, if_neg (by simp [h c rfl])]
    rfl

theorem clean_slash {base more : List Char} (h : ∀ c ∈ more.head?, isPadding c = false) :
    clean (base ++ '/' :: more) = front base ++ '/' :: clean more := by
  have slash : isPadding '/' = false := by decide
  have begun : (base ++ '/' :: more).dropWhile isPadding = base.dropWhile isPadding ++ '/' :: more := by
    rw [List.dropWhile_append]
    split
    · next h =>
      rw [List.isEmpty_iff.mp h, List.dropWhile_cons, if_neg (by simp [slash])]
      rfl
    · rfl
  rw [clean, begun, dropEndWhile_append slash, List.filter_append, clean_of_head h]
  rfl

/-- The query of a text begins in its first part, or what is read of both parts is joined. -/
theorem beforeQuery_append (as bs : List Char) : beforeQuery (as ++ bs) =
    if as.any endsPath then beforeQuery as else as ++ beforeQuery bs := by
  have same : (fun c => c != '?' && c != '#') = fun c => !endsPath c := by
    funext c
    simp [endsPath, bne]
  rw [beforeQuery, beforeQuery, beforeQuery, same]
  split
  · next h =>
    obtain ⟨c, hc, he⟩ := List.any_eq_true.mp h
    rw [List.takeWhile_append, if_neg]
    intro hl
    have whole := (List.takeWhile_sublist fun c => !endsPath c).eq_of_length hl
    have := List.all_takeWhile (p := fun c => !endsPath c) (l := as)
    rw [whole, List.all_eq_true] at this
    simpa [he] using this c hc
  · next h =>
    rw [List.takeWhile_append_of_pos]
    intro c hc
    simpa using fun he => h (List.any_eq_true.mpr ⟨c, hc, he⟩)

theorem any_endsPath_kept (cs : List Char) : (kept cs).any endsPath = cs.any endsPath := by
  rw [kept, List.any_filter]
  congr 1
  funext c
  by_cases h : isIgnored c = true
  · simp only [isIgnored, Bool.or_eq_true, beq_iff_eq] at h
    rcases h with (rfl | rfl) | rfl <;> rfl
  · simp [h]

theorem any_endsPath_dropWhile : ∀ cs : List Char, (cs.dropWhile isPadding).any endsPath = cs.any endsPath
  | [] => rfl
  | c :: cs => by
    rw [List.dropWhile_cons]
    split
    · next h =>
      have plain : endsPath c = false := by
        refine Bool.eq_false_iff.mpr fun he => ?_
        simp only [endsPath, Bool.or_eq_true, beq_iff_eq] at he
        rcases he with rfl | rfl <;> revert h <;> decide
      rw [any_endsPath_dropWhile cs, List.any_cons, plain, Bool.false_or]
    · rfl

theorem any_endsPath_front (base : List Char) : (front base).any endsPath = base.any endsPath := by
  rw [front, any_endsPath_kept, any_endsPath_dropWhile]

/-! ### A URL that goes on after a slash -/

theorem scheme?_slash (as bs : List Char) :
    scheme? (as ++ '/' :: bs) = (scheme? as).map fun s => (s.1, s.2 ++ '/' :: bs) := by
  have slash : isSchemeChar '/' = false := by decide
  have before : (as ++ '/' :: bs).takeWhile isSchemeChar = as.takeWhile isSchemeChar := by
    rw [List.takeWhile_append]
    split
    · next h =>
      rw [List.takeWhile_cons, if_neg (by simp [slash]), List.append_nil]
      exact ((List.takeWhile_sublist _).eq_of_length h).symm
    · rfl
  have after : (as ++ '/' :: bs).dropWhile isSchemeChar = as.dropWhile isSchemeChar ++ '/' :: bs := by
    rw [List.dropWhile_append]
    split
    · next h =>
      rw [List.isEmpty_iff.mp h, List.dropWhile_cons, if_neg (by simp [slash])]
      rfl
    · rfl
  rw [scheme?, scheme?, List.span_eq_takeWhile_dropWhile, List.span_eq_takeWhile_dropWhile, before, after]
  cases as.takeWhile isSchemeChar with
  | nil => rfl
  | cons c name =>
    cases as.dropWhile isSchemeChar with
    | nil => rfl
    | cons d rest =>
      by_cases hd : d = ':'
      · subst hd
        rw [List.cons_append]
        by_cases hc : c.isAlpha = true <;> simp [hc]
      · simp [hd]

theorem hosted?_slash (as bs : List Char) : hosted? (as ++ '/' :: bs) =
    (hosted? as).map fun cs => if cs = [] then bs.dropWhile Kind.web.isSlash else cs ++ '/' :: bs := by
  have slash : Kind.web.isSlash '/' = true := rfl
  rw [hosted?, hosted?, scheme?_slash]
  cases scheme? as with
  | none => rfl
  | some s =>
    rw [Option.map_some, Option.bind_some, Option.bind_some]
    split
    · rw [List.dropWhile_append, List.dropWhile_cons, if_pos slash, Option.map_some]
      simp only [List.isEmpty_iff]
    · rfl

theorem afterHost_slash (cs bs : List Char) : afterHost (cs ++ '/' :: bs) = afterHost cs ++ '/' :: bs := by
  have slash : Kind.web.isSlash '/' = true := rfl
  rw [afterHost, List.dropWhile_append]
  split
  · next h =>
    rw [afterHost, List.isEmpty_iff.mp h, List.dropWhile_cons, if_neg (by simp [slash])]
    rfl
  · rfl

/-- What is requested of a URL that goes on after a slash, where the first part names a host. -/
theorem requested?_slash {base more : List Char} (hq : base.any endsPath = false)
    (named : (hosted? (front base)).getD [] ≠ []) (hp : ∀ c ∈ more.head?, isPadding c = false) :
    requested? stays (base ++ '/' :: more) =
      some (pathOf (arrive stays (place stays base) (segments .web (beforeQuery (clean more))))) := by
  have read : beforeQuery (clean (base ++ '/' :: more)) = front base ++ '/' :: beforeQuery (clean more) := by
    rw [clean_slash hp, beforeQuery_append, any_endsPath_front, hq, if_neg Bool.false_ne_true]
    rfl
  cases hh : hosted? (front base) with
  | none => exact absurd (by rw [hh]; rfl) named
  | some cs =>
    rw [hh, Option.getD_some] at named
    have shown : requested? stays (base ++ '/' :: more) = some (pathOf (arrive stays []
        (segments .web ((afterHost (cs ++ '/' :: beforeQuery (clean more))).drop 1)))) := by
      rw [requested?, read, hosted?_slash, hh, Option.map_some, if_neg named]
      cases cs with
      | nil => exact absurd rfl named
      | cons c cs => rfl
    rw [shown, afterHost_slash, place, hh, Option.getD_some]
    cases afterHost cs with
    | nil => rfl
    | cons c path =>
      rw [List.cons_append, List.drop_one, List.tail_cons, segments_append, arrive_append (segments_ne_nil _ _)]

theorem hosted?_ne_nil {base path : List Char} (hq : base.any endsPath = false)
    (h : requested? stays (base ++ ['/']) = some path) : (hosted? (front base)).getD [] ≠ [] := by
  have read : beforeQuery (clean (base ++ ['/'])) = front base ++ ['/'] := by
    rw [clean_slash (by simp), beforeQuery_append, any_endsPath_front, hq, if_neg Bool.false_ne_true]
    rfl
  intro none
  rw [requested?, read, hosted?_slash] at h
  cases hh : hosted? (front base) with
  | none => simp [hh] at h
  | some cs =>
    rw [hh, Option.getD_some] at none
    simp [hh, none] at h

/-- A first part with a query or fragment of its own takes up whatever follows it. -/
theorem requested?_of_endsPath {base more : List Char} (h : base.any endsPath = true)
    (hp : ∀ c ∈ more.head?, isPadding c = false) :
    requested? stays (base ++ '/' :: more) = requested? stays (base ++ ['/']) := by
  rw [← any_endsPath_front] at h
  rw [requested?, requested?, clean_slash hp, clean_slash (by simp), beforeQuery_append, beforeQuery_append, if_pos h,
    if_pos h]

theorem not_mem_place {base s : List Char} (h : s ∈ place stays base) : '/' ∉ s := by
  rw [place] at h
  split at h
  · cases h
  · exact not_mem_segments ((mem_foldl_enter h).resolve_left List.not_mem_nil)

end Url
end MfaConsole
