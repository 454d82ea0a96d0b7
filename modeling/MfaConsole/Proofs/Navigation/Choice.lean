import MfaConsole.Proofs.Navigation.Table

/-! Which state a URL leads to, and with which parameters: of the states that match its path, the earliest one with most
    literal segments. -/

namespace MfaConsole
namespace Navigation
open Text

/-- A state matches the pieces of a path: its pattern has as many segments as there are pieces, and each of its literal
    segments is the piece in its place. -/
def State.Matches (s : State) (pieces : List (List Char)) : Prop :=
  s.pattern.segments.length = pieces.length ∧
    ∀ (i : Nat) text, s.pattern.segments[i]? = some (Segment.literal text) → pieces[i]? = some text.toList

namespace Pattern

theorem fits_iff {ss : List Segment} {ps : List (List Char)} : fits ss ps = true ↔
    ss.length = ps.length ∧ ∀ (i : Nat) text, ss[i]? = some (Segment.literal text) → ps[i]? = some text.toList := by
  fun_induction fits ss ps with
  | case1 => simp
  | case2 text ss p ps ih =>
    rw [Bool.and_eq_true, decide_eq_true_eq, ih, List.length_cons, List.length_cons, Nat.succ_inj]
    constructor
    · rintro ⟨rfl, same, literal⟩
      refine ⟨same, fun i other hi => ?_⟩
      cases i with
      | zero =>
        cases hi
        rfl
      | succ i => exact literal i other hi
    · rintro ⟨same, literal⟩
      refine ⟨?_, same, fun i other hi => literal (i + 1) other hi⟩
      exact (Option.some.inj (literal 0 text rfl)).symm
  | case3 name ss p ps ih =>
    rw [ih, List.length_cons, List.length_cons, Nat.succ_inj]
    refine and_congr_right fun _ => ⟨fun literal i text hi => ?_, fun literal i text hi => literal (i + 1) text hi⟩
    cases i with
    | zero => cases hi
    | succ i => exact literal i text hi
  | case4 ss ps none literal parameter =>
    refine iff_of_false Bool.false_ne_true fun h => ?_
    cases ss with
    | nil => exact none rfl (List.length_eq_zero_iff.mp h.1.symm)
    | cons s ss =>
      obtain ⟨p, ps, rfl⟩ := List.exists_cons_of_length_eq_add_one h.1.symm
      cases s with
      | literal text => exact literal text ss p ps rfl rfl
      | parameter name => exact parameter name ss p ps rfl rfl

theorem literalCount_le_length (p : Pattern) : p.literalCount ≤ p.segments.length := List.countP_le_length

end Pattern

namespace Registry

theorem matches_iff {s : State} {pieces : List (List Char)} :
    s.Matches pieces ↔ Pattern.fits s.pattern.segments pieces = true := Pattern.fits_iff.symm

/-- Of the states that match the pieces, `s` is the earliest one among those with most literal segments. -/
def Chosen (states : List State) (pieces : List (List Char)) (s : State) : Prop :=
  s.Matches pieces ∧ ∃ before after, states = before ++ s :: after ∧
    (∀ t ∈ before, t.Matches pieces → t.pattern.literalCount < s.pattern.literalCount) ∧
    ∀ t ∈ after, t.Matches pieces → t.pattern.literalCount ≤ s.pattern.literalCount

/-! ### The choice -/

section Choice
variable {pieces : List (List Char)} {states : List State} {s t : State}

theorem Chosen.le (h : Chosen states pieces s) (ht : t ∈ states) (hm : t.Matches pieces) :
    t.pattern.literalCount ≤ s.pattern.literalCount := by
  obtain ⟨-, before, after, rfl, earlier, later⟩ := h
  rcases List.mem_append.mp ht with ht | ht
  · exact Nat.le_of_lt (earlier t ht hm)
  · rcases List.mem_cons.mp ht with rfl | ht
    · exact Nat.le_refl _
    · exact later t ht hm

theorem Chosen.mem (h : Chosen states pieces s) : s ∈ states := by
  obtain ⟨-, before, after, rfl, -⟩ := h
  exact List.mem_append_right _ List.mem_cons_self

theorem Chosen.cons (h : Chosen states pieces s)
    (ht : t.Matches pieces → t.pattern.literalCount < s.pattern.literalCount) : Chosen (t :: states) pieces s := by
  obtain ⟨hm, before, after, rfl, earlier, later⟩ := h
  refine ⟨hm, t :: before, after, rfl, ?_, later⟩
  rw [List.forall_mem_cons]
  exact ⟨ht, earlier⟩

theorem exists_match?_iff : (∃ params, s.pattern.match? pieces = some params) ↔ s.Matches pieces := by
  rw [matches_iff]
  constructor
  · rintro ⟨params, h⟩
    exact (Pattern.match?_eq_some_iff.mp h).1
  · exact fun h => ⟨_, Pattern.match?_eq_some_iff.mpr ⟨h, rfl⟩⟩

theorem match?_eq_none_iff : s.pattern.match? pieces = none ↔ ¬s.Matches pieces := by
  rw [← exists_match?_iff, Option.eq_none_iff_forall_ne_some, not_exists]

theorem chosen_of_mostSpecific? {params : KeyMap String} (h : mostSpecific? pieces states = some (s, params)) :
    Chosen states pieces s := by
  induction states generalizing s params with
  | nil => cases h
  | cons t ts ih =>
    cases hm : t.pattern.match? pieces with
    | none =>
      rw [mostSpecific?, hm] at h
      exact (ih h).cons fun matched => absurd matched (match?_eq_none_iff.mp hm)
    | some found =>
      have matched : t.Matches pieces := exists_match?_iff.mp ⟨found, hm⟩
      rcases hb : mostSpecific? pieces ts with _ | ⟨best, taken⟩
      · rw [mostSpecific?, hm, hb] at h
        cases h
        refine ⟨matched, [], ts, rfl, fun u hu => absurd hu List.not_mem_nil, fun u hu hu' => ?_⟩
        exact absurd hu' (match?_eq_none_iff.mp (mostSpecific?_eq_none_iff.mp hb u hu))
      · rw [mostSpecific?, hm, hb] at h
        dsimp only at h
        split at h
        · next hle =>
          cases h
          refine ⟨matched, [], ts, rfl, fun u hu => absurd hu List.not_mem_nil, fun u hu hu' => ?_⟩
          exact Nat.le_trans ((ih hb).le hu hu') hle
        · next hlt =>
          cases h
          exact (ih hb).cons fun _ => Nat.lt_of_not_le hlt

end Choice

/-! ### Where a URL leads -/

variable {r : Registry} {url : String}

/-- Where no state matches the path of a URL it is refused, and otherwise it leads to the state chosen for its path, or
    on to the end of that state's default children. -/
theorem resolve_cases (r : Registry) (url : String) :
    (∀ s ∈ r.states, ¬s.Matches (pathPieces (cutOrAll '?' url.toList).1)) ∧ r.resolve url = .error (.noMatch url) ∨
    ∃ s, Chosen r.states (pathPieces (cutOrAll '?' url.toList).1) s ∧
      r.resolve url = match r.defaultTarget? s.name with
        | some target => (r.href target []).map fun next => .redirect s.name target next
        | none => .ok (.matched ⟨s.name, s.controller,
            takeQuery s.pattern.queryNames (Form.readChars (cutOrAll '?' url.toList).2)
              (KeyMap.ofList (Pattern.taken s.pattern.segments (pathPieces (cutOrAll '?' url.toList).1)))⟩) := by
  rcases hc : mostSpecific? (pathPieces (cutOrAll '?' url.toList).1) r.states with _ | ⟨s, params⟩
  · refine Or.inl ⟨fun s hs => match?_eq_none_iff.mp (mostSpecific?_eq_none_iff.mp hc s hs), ?_⟩
    rw [resolve]
    dsimp only
    rw [hc]
  · obtain ⟨-, rfl⟩ := Pattern.match?_eq_some_iff.mp (mostSpecific?_eq_some hc).2
    refine Or.inr ⟨s, chosen_of_mostSpecific? hc, ?_⟩
    cases hd : r.defaultTarget? s.name <;> simp only [resolve, hc, hd]

theorem fillPath_ne_noMatch {name : String} {params : List (String × String)} : ∀ {ss : List Segment},
    fillPath name params ss ≠ .error (.noMatch url)
  | [], h => by cases h
  | .literal text :: ss, h => by
    rw [fillPath] at h
    rcases hr : fillPath name params ss with e | rest <;> rw [hr] at h <;> cases h
    exact fillPath_ne_noMatch hr
  | .parameter x :: ss, h => by
    rw [fillPath] at h
    split at h
    · cases h
    · rcases hr : fillPath name params ss with e | rest <;> rw [hr] at h <;> cases h
      exact fillPath_ne_noMatch hr

theorem href_ne_noMatch {name : String} {params : List (String × String)} :
    r.href name params ≠ .error (.noMatch url) := by
  intro h
  rw [href] at h
  rcases hs : r.state? name with _ | s <;> rw [hs] at h
  · cases h
  · rcases hp : fillPath name params s.pattern.segments with e | path <;> simp only [hp] at h <;> cases h
    exact fillPath_ne_noMatch hp

/-- A URL is refused for want of a match exactly if no state matches its path. -/
theorem resolve_eq_noMatch_iff : r.resolve url = .error (.noMatch url) ↔
    ∀ s ∈ r.states, ¬s.Matches (pathPieces (cutOrAll '?' url.toList).1) := by
  rcases resolve_cases r url with ⟨none, refused⟩ | ⟨s, chosen, led⟩
  · exact iff_of_true refused none
  · refine iff_of_false (fun h => ?_) fun none => none s chosen.mem chosen.1
    rw [led] at h
    split at h
    · next target _ =>
      rcases hh : r.href target [] with e | next <;> rw [hh] at h <;> cases h
      exact href_ne_noMatch hh
    · cases h

/-- The value of the last pair of a key. -/
def lastValue? (key : String) (pairs : List (String × String)) : Option String := pairs.reverse.lookup key

theorem lastValue?_filter (names : List String) (pairs : List (String × String)) (key : String) :
    lastValue? key (pairs.filter fun q => names.contains q.1) =
      if key ∈ names then lastValue? key pairs else none := by
  rw [lastValue?, lastValue?, ← List.filter_reverse, KeyMap.lookup_filter_keys fun name => names.contains name]
  simp only [List.contains_iff_mem]

/-- In every table made from declarations, a URL is refused exactly if no state matches the path before its first
    question mark. Otherwise it leads to the earliest declared one of the matching states with most literal segments:
    on to the end of its default children, or to itself. In the latter case a name has the last value of its key in
    the query if the state declares it for the query and it is there, or else the text of the last piece in the place
    of a parameter of that name; no other name has a value. -/
theorem resolve_chosen (mount : String) (release : Release) (ds : List Declaration) (defaults : List (String × String))
    (url : String) :
    let r := ofDeclarations mount release ds defaults
    let pieces := pathPieces (cutOrAll '?' url.toList).1
    let query := Form.readChars (cutOrAll '?' url.toList).2
    r.states.map (fun s => (s.name, s.controller)) = ds.map (fun d => (d.name, d.controller)) ∧
    (r.resolve url = .error (.noMatch url) ↔ ∀ s ∈ r.states, ¬s.Matches pieces) ∧
    ((∀ s ∈ r.states, ¬s.Matches pieces) ∨ ∃ s, Chosen r.states pieces s ∧
      match r.defaultTarget? s.name with
      | some target => r.resolve url = (r.href target []).map fun next => .redirect s.name target next
      | none => ∃ params, r.resolve url = .ok (.matched ⟨s.name, s.controller, params⟩) ∧
          ∀ key, params.get? key = (if key ∈ s.pattern.queryNames then lastValue? key query else none).or
            (lastValue? key (Pattern.taken s.pattern.segments pieces))) := by
  intro r pieces query
  refine ⟨states_ofDeclarations mount release ds defaults, resolve_eq_noMatch_iff, ?_⟩
  refine (resolve_cases r url).imp And.left ?_
  rintro ⟨s, chosen, led⟩
  refine ⟨s, chosen, ?_⟩
  cases hd : r.defaultTarget? s.name with
  | some target =>
    rw [hd] at led
    exact led
  | none =>
    rw [hd] at led
    refine ⟨_, led, fun key => ?_⟩
    rw [get?_takeQuery, ← lastValue?, lastValue?_filter, KeyMap.get?_ofList, ← lastValue?]

/-- Two states that declare `/a` and a parameter, of which the earlier one counts, and one with two parameters. -/
def overlapping : List Declaration :=
  [⟨"p", "/\x7bx\x7d/\x7by\x7d", "p", "p", none⟩, ⟨"a", "/a?q", "a", "a", none⟩,
   ⟨"a.item", "/\x7bx\x7d?x", "a", "item", none⟩, ⟨"z", "/a/\x7by\x7d", "z", "z", none⟩]

example : ∃ params, (ofDeclarations "" ⟨"1.0"⟩ overlapping []).resolve "/a//b%20c?q=1&r=2&q=+3" =
    .ok (.matched ⟨"a.item", none, params⟩) ∧ params.entries = [("q", " 3"), ("x", "b c")] :=
  ⟨_, rfl, rfl⟩

end Registry
end Navigation
end MfaConsole
