import MfaConsole.Host.Relay
import MfaConsole.Proofs.Url.Reading

/-! Where relayed requests arrive. The relay looks at the first segment of a path as it came; the client that sends the
    request walks the segments of the whole URL, and double dots may lead it to other resources. -/

namespace MfaConsole
namespace Host

/-- What sends requests for URLs. It reads them by the rules for URLs of the web and escapes what needs it in their
    paths; it may refuse a URL. Clients differ in the segments that double dots do not remove. -/
structure Client where
  /-- The path that is requested of a URL, if any. -/
  asked? : String → Option (List Char)
  stays : List Char → Bool
  escape : Char → List Char
  reads : ∀ url asked, asked? url = some asked →
    ∃ path, Url.requested? stays url.toList = some path ∧ asked = path.flatMap escape
  escape_slash : escape '/' = ['/']
  not_mem_escape : ∀ c, c ≠ '/' → '/' ∉ escape c
  escape_alpha : ∀ c, c.isAlpha = true → escape c = [c]

namespace Client

/-- A client that requests what has a host, and escapes nothing. -/
def plain : Client where
  asked? url := Url.requested? (fun _ => false) url.toList
  stays _ := false
  escape c := [c]
  reads _ asked h := ⟨asked, h, (List.flatMap_singleton' asked).symm⟩
  escape_slash := rfl
  not_mem_escape _ h hm := h (List.mem_singleton.mp hm).symm
  escape_alpha _ _ := rfl

variable (client : Client)

def escaped (s : List Char) : List Char := s.flatMap client.escape

theorem not_mem_escaped {s : List Char} (h : '/' ∉ s) : '/' ∉ client.escaped s := fun hm => by
  obtain ⟨c, hc, hm⟩ := List.mem_flatMap.mp hm
  exact client.not_mem_escape c (fun he => h (he ▸ hc)) hm

theorem escaped_of_isAlpha {s : List Char} (h : ∀ c ∈ s, c.isAlpha = true) : client.escaped s = s := by
  induction s with
  | nil => rfl
  | cons c s ih =>
    rw [escaped, List.flatMap_cons, client.escape_alpha c (h c List.mem_cons_self)]
    exact congrArg _ (ih fun d hd => h d (List.mem_cons_of_mem _ hd))

theorem flatMap_pathOf (ss : List (List Char)) :
    (Url.pathOf ss).flatMap client.escape = Url.pathOf (ss.map client.escaped) := by
  induction ss with
  | nil => rfl
  | cons s ss ih =>
    rw [Url.pathOf, List.flatMap_cons, List.flatMap_append, List.flatMap_cons, client.escape_slash]
    exact congrArg (['/'] ++ client.escaped s ++ ·) ih

end Client

namespace Relay

/-- A requested path is that of the base, followed by one of the backend's resources. -/
def Confined (own asked : List Char) : Prop :=
  ∃ root ∈ Rest.resourceRoots, ∃ rest, (rest = [] ∨ rest.head? = some '/') ∧ asked = own ++ root.toList ++ rest

variable {client : Client} {r : Relay} {path url : String} {query : Option String} {own asked : List Char}

/-- The segments that follow the base in a URL, as they are read. -/
def segmentsAfter (r : Relay) (url : String) : List (List Char) :=
  Url.segments .web (Url.beforeQuery (Url.clean (url.toList.drop (r.base.toList.length + 1))))

/-- The way that a client goes from the base. -/
def trail (client : Client) (r : Relay) (url : String) : Url.Trail :=
  Url.Trail.ofSegments client.stays (Url.place client.stays r.base.toList) (r.segmentsAfter url)

/-- The names of the resources are letters, which mean nothing to a reader of URLs. -/
theorem resourceRoots_letters : ∀ root ∈ Rest.resourceRoots, root.toList ≠ [] ∧ ∀ c ∈ root.toList,
    c.isAlpha = true ∧ Url.isPadding c = false ∧ Url.isIgnored c = false ∧ Url.endsPath c = false ∧
      Url.Kind.web.isSlash c = false := by
  have all : Rest.resourceRoots.all (fun root => !root.toList.isEmpty && root.toList.all fun c =>
      c.isAlpha && !Url.isPadding c && !Url.isIgnored c && !Url.endsPath c && !Url.Kind.web.isSlash c) = true := by
    decide +kernel
  simpa [List.all_eq_true, and_assoc] using all

theorem not_mem_resourceRoots {root : String} (h : root ∈ Rest.resourceRoots) : '/' ∉ root.toList := fun hm =>
  absurd ((resourceRoots_letters root h).2 _ hm).1 (by decide)

theorem toList_backendPath {mount path below : String} (h : backendPath? mount path = some below) :
    ∃ root ∈ Rest.resourceRoots, ∃ tail, (∀ c ∈ tail.head?, c = '/') ∧
      below.toList = '/' :: (root.toList ++ tail) := by
  rw [backendPath?] at h
  split at h
  · next rest _ =>
    split at h
    · next hroot =>
      refine ⟨_, List.contains_iff_mem.mp hroot, rest.dropWhile (· != '/'), fun c hc => ?_, ?_⟩
      · have := List.head?_dropWhile_not (· != '/') rest
        rw [hc] at this
        simpa using this
      · rw [← Option.some.inj h, String.toList_ofList, String.toList_ofList, List.takeWhile_append_dropWhile]
    · cases h
  · cases h

/-- The URL of a relayed request is the base, a slash, and the name of a resource as the first segment after it. -/
theorem toList_target (h : r.target? path query = some url) : ∃ root ∈ Rest.resourceRoots, ∃ tail,
    (∀ c ∈ tail.head?, c = '/' ∨ c = '?') ∧ url.toList = r.base.toList ++ '/' :: (root.toList ++ tail) := by
  obtain ⟨below, hb, hu⟩ := Option.map_eq_some_iff.mp h
  obtain ⟨root, hr, tail, ht, hw⟩ := toList_backendPath hb
  refine ⟨root, hr, ?_⟩
  split at hu
  · next q _ =>
    refine ⟨tail ++ '?' :: q.toList, fun c hc => ?_, ?_⟩
    · rw [List.head?_append] at hc
      cases hd : tail.head? with
      | none => exact Or.inr (by simpa [hd] using hc.symm)
      | some d => exact Or.inl (ht c (by simpa [hd] using hc))
    · rw [← hu, String.toList_append, String.toList_append, String.toList_append, hw, List.append_assoc]
      simp
  · refine ⟨tail, fun c hc => Or.inl (ht c hc), ?_⟩
    rw [← hu, String.toList_append, hw]

theorem head_resource {root : String} (hr : root ∈ Rest.resourceRoots) (tail : List Char) :
    ∀ c ∈ (root.toList ++ tail).head?, Url.isPadding c = false := fun c hc => by
  obtain ⟨hn, hl⟩ := resourceRoots_letters root hr
  obtain ⟨first, more, he⟩ := List.exists_cons_of_ne_nil hn
  rw [he, List.cons_append, List.head?_cons] at hc
  exact (hl c (he ▸ Option.some.inj hc ▸ List.mem_cons_self)).2.1

theorem asked_eq (hq : r.base.toList.any Url.endsPath = false) (hu : r.target? path query = some url)
    (ho : client.asked? (r.base ++ "/") = some own) (ha : client.asked? url = some asked) :
    own = Url.pathOf ((Url.arrive client.stays (Url.place client.stays r.base.toList) [[]]).map client.escaped) ∧
      asked = Url.pathOf ((Url.arrive client.stays (Url.place client.stays r.base.toList)
        (r.segmentsAfter url)).map client.escaped) := by
  obtain ⟨ownPath, hown, rfl⟩ := client.reads _ _ ho
  obtain ⟨askedPath, hasked, rfl⟩ := client.reads _ _ ha
  obtain ⟨root, hr, tail, -, hw⟩ := toList_target hu
  have after : r.segmentsAfter url = Url.segments .web (Url.beforeQuery (Url.clean (root.toList ++ tail))) := by
    rw [segmentsAfter, hw, ← List.drop_drop, List.drop_left]
    rfl
  rw [String.toList_append] at hown
  have named := Url.hosted?_ne_nil hq hown
  rw [hw, Url.requested?_slash hq named (head_resource hr tail)] at hasked
  have bare : Url.requested? client.stays (r.base.toList ++ ['/']) = _ := Url.requested?_slash hq named (by simp)
  rw [← client.flatMap_pathOf, ← client.flatMap_pathOf, after, ← Option.some.inj hasked]
  exact ⟨congrArg (List.flatMap client.escape) (Option.some.inj (hown.symm.trans bare)), rfl⟩

/-- Where the base has no query or fragment of its own, the trail decides. -/
theorem confined_iff_entered (hq : r.base.toList.any Url.endsPath = false) (hu : r.target? path query = some url)
    (ho : client.asked? (r.base ++ "/") = some own) (ha : client.asked? url = some asked) : Confined own asked ↔
      ∃ root ∈ Rest.resourceRoots,
        (root.toList :: (Url.place client.stays r.base.toList).take (r.trail client url).left).map client.escaped <:+
          (r.trail client url).entered.map client.escaped := by
  obtain ⟨hown, hasked⟩ := asked_eq hq hu ho ha
  rw [Confined]
  refine exists_congr fun root => and_congr_right fun hr => ?_
  have shown : client.escaped root.toList = root.toList :=
    client.escaped_of_isAlpha fun c hc => ((resourceRoots_letters root hr).2 c hc).1
  have written : client.escaped root.toList ≠ [] := by
    rw [shown]
    exact (resourceRoots_letters root hr).1
  have segments : ∀ s ∈ r.segmentsAfter url, '/' ∉ s := fun _ => Url.not_mem_segments
  rw [trail, ← Url.Trail.cons_suffix_walked_iff, Url.Trail.walked_ofSegments,
    ← Url.pathOf_arrive_iff (fun _ => client.not_mem_escaped) rfl (fun _ => Url.not_mem_place) segments written
      (not_mem_resourceRoots hr), shown, hown, hasked]

/-- Where the base has a query or fragment of its own, nothing of what follows is requested. -/
theorem not_confined_of_endsPath (hq : r.base.toList.any Url.endsPath = true) (hu : r.target? path query = some url)
    (ho : client.asked? (r.base ++ "/") = some own) (ha : client.asked? url = some asked) : ¬Confined own asked := by
  obtain ⟨ownPath, hown, rfl⟩ := client.reads _ _ ho
  obtain ⟨askedPath, hasked, rfl⟩ := client.reads _ _ ha
  obtain ⟨first, hfirst, tail, -, hw⟩ := toList_target hu
  rw [hw, Url.requested?_of_endsPath hq (head_resource hfirst tail)] at hasked
  rw [String.toList_append] at hown
  have same : askedPath = ownPath := Option.some.inj (hasked.symm.trans hown)
  rintro ⟨root, hroot, rest, -, h⟩
  have longer := congrArg List.length h
  have := List.length_pos_iff.mpr (resourceRoots_letters root hroot).1
  rw [same, List.length_append, List.length_append] at longer
  omega

/-- A relayed request stays within the backend's resources below the base exactly if the base has no query or fragment
    of its own and the segments which the client enters begin with those of the base that it left, followed by the
    name of a resource. -/
theorem target_confined_iff (hu : r.target? path query = some url) (ho : client.asked? (r.base ++ "/") = some own)
    (ha : client.asked? url = some asked) : Confined own asked ↔
      r.base.toList.any Url.endsPath = false ∧ ∃ root ∈ Rest.resourceRoots,
        (root.toList :: (Url.place client.stays r.base.toList).take (r.trail client url).left).map client.escaped <:+
          (r.trail client url).entered.map client.escaped := by
  cases hq : r.base.toList.any Url.endsPath with
  | true => exact iff_of_false (not_confined_of_endsPath hq hu ho ha) fun h => absurd h.1 (by simp)
  | false => rw [confined_iff_entered hq hu ho ha, eq_self, true_and]

/-- Dots that lead up to the base and then to a resource again do no harm. -/
theorem target_confined_again : ∃ (r : Relay) (path url : String) (own asked : List Char),
    r.target? path none = some url ∧ Client.plain.asked? (r.base ++ "/") = some own ∧
      Client.plain.asked? url = some asked ∧ Confined own asked := by
  have relayed : (Relay.mk "http://backend:5000/mfa" "/console").target? "/console/machine/%2e%2E/client/x" none =
      some "http://backend:5000/mfa/machine/%2e%2E/client/x" := by decide +kernel
  have own : Client.plain.asked? "http://backend:5000/mfa/" = some "/mfa/".toList := by decide +kernel
  have asked : Client.plain.asked? "http://backend:5000/mfa/machine/%2e%2E/client/x" =
      some "/mfa/client/x".toList := by decide +kernel
  refine ⟨_, _, _, _, _, relayed, own, asked, (target_confined_iff relayed own asked).mpr ⟨by decide +kernel, ?_⟩⟩
  exact ⟨"client", by decide, ["x".toList], by decide +kernel⟩

/-- Double dots lead a relayed request to a path of the backend that is none of its resources. -/
theorem exists_target_not_confined : ∃ (r : Relay) (path url : String) (own asked : List Char),
    r.target? path none = some url ∧ Client.plain.asked? (r.base ++ "/") = some own ∧
      Client.plain.asked? url = some asked ∧ ¬Confined own asked := by
  refine ⟨⟨"http://backend:5000", ""⟩, "/machine/../admin", "http://backend:5000/machine/../admin", "/".toList,
    "/admin".toList, by decide +kernel, by decide +kernel, by decide +kernel, ?_⟩
  rintro ⟨root, hroot, rest, -, h⟩
  have other : ∀ root ∈ Rest.resourceRoots, ¬root.toList <+: "admin".toList := by decide
  exact other root hroot ⟨rest, (List.cons.inj h).2.symm⟩

/-! ### Paths without double dots -/

theorem clean_resource {root : String} (hr : root ∈ Rest.resourceRoots) {tail : List Char}
    (ht : ∀ c ∈ tail.head?, c = '/' ∨ c = '?') : ∃ tail', (∀ c ∈ tail'.head?, c = '/' ∨ c = '?') ∧
      Url.clean (root.toList ++ tail) = root.toList ++ tail' := by
  obtain ⟨hn, hl⟩ := resourceRoots_letters root hr
  have all : Url.kept root.toList = root.toList :=
    List.filter_eq_self.mpr fun c hc => by simp [(hl c hc).2.2.1]
  rw [Url.clean_of_head (head_resource hr tail)]
  cases tail with
  | nil =>
    obtain ⟨init, last, he⟩ := (List.eq_nil_or_concat root.toList).resolve_left hn
    have ends : Url.isPadding last = false := (hl last (by simp [he])).2.1
    have same : Text.dropEndWhile Url.isPadding root.toList = root.toList := by
      have := Url.dropEndWhile_append ends init []
      rwa [Text.dropEndWhile_nil, ← List.concat_eq_append, ← he] at this
    refine ⟨[], by simp, ?_⟩
    rw [List.append_nil, same, all]
  | cons c more =>
    have hc := ht c rfl
    have bare : Url.isPadding c = false ∧ Url.isIgnored c = false := by
      rcases hc with rfl | rfl <;> decide
    refine ⟨c :: Url.kept (Text.dropEndWhile Url.isPadding more), fun d hd => Option.some.inj hd ▸ hc, ?_⟩
    rw [Url.dropEndWhile_append bare.1, Url.kept, List.filter_append, List.filter_cons, if_pos (by simp [bare.2])]
    exact congrArg (· ++ _) all

theorem segmentsAfter_eq_cons (hu : r.target? path query = some url) :
    ∃ root ∈ Rest.resourceRoots, ∃ ss, r.segmentsAfter url = root.toList :: ss := by
  obtain ⟨root, hr, tail, ht, hw⟩ := toList_target hu
  obtain ⟨tail', ht', hc⟩ := clean_resource hr ht
  obtain ⟨hn, hl⟩ := resourceRoots_letters root hr
  refine ⟨root, hr, ?_⟩
  have free : ¬root.toList.any Url.endsPath = true := fun h => by
    obtain ⟨c, hm, he⟩ := List.any_eq_true.mp h
    exact absurd he (by simp [(hl c hm).2.2.2.1])
  have one : Url.segments .web root.toList = [root.toList] := by
    have same : root.toList.map (fun c => if Url.Kind.web.isSlash c then '/' else c) = root.toList := by
      refine (List.map_congr_left fun c hm => ?_).trans (List.map_id _)
      rw [(hl c hm).2.2.2.2, if_neg Bool.false_ne_true, id]
    rw [Url.segments, same]
    exact Text.pieces_of_not_mem (not_mem_resourceRoots hr)
  rw [segmentsAfter, hw, ← List.drop_drop, List.drop_left, List.drop_one, List.tail_cons, hc, Url.beforeQuery_append,
    if_neg free]
  cases tail' with
  | nil => exact ⟨[], by rw [Url.beforeQuery, List.takeWhile_nil, List.append_nil, one]⟩
  | cons c more =>
    rcases ht' c rfl with rfl | rfl
    · exact ⟨_, by rw [show Url.beforeQuery ('/' :: more) = '/' :: Url.beforeQuery more from rfl,
        Url.segments_append, one, List.singleton_append]⟩
    · exact ⟨[], by rw [show Url.beforeQuery ('?' :: more) = [] from rfl, List.append_nil, one]⟩

/-- Without double dots after its first segment a relayed request stays within the backend's resources. -/
theorem confined_of_not_isAbove (hq : r.base.toList.any Url.endsPath = false) (hu : r.target? path query = some url)
    (ho : client.asked? (r.base ++ "/") = some own) (ha : client.asked? url = some asked)
    (h : ∀ s ∈ r.segmentsAfter url, Url.isAbove s = false) : Confined own asked := by
  obtain ⟨root, hr, ss, hs⟩ := segmentsAfter_eq_cons hu
  have plain : ∀ root ∈ Rest.resourceRoots, Url.isDots root.toList = false := by decide
  rw [hs] at h
  rw [confined_iff_entered hq hu ho ha, trail, hs]
  obtain ⟨stayed, entered⟩ := Url.Trail.ofSegments_of_not_isAbove (plain root hr) fun s hm =>
    h s (List.mem_cons_of_mem _ hm)
  rw [stayed, List.take_zero]
  exact ⟨root, hr, entered.map client.escaped⟩

end Relay
end Host
end MfaConsole
