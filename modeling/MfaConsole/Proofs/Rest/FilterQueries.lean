import MfaConsole.Proofs.Text.Pieces
import MfaConsole.Rest.Exchange
import MfaConsole.Wire.Token

/-! How the filters of listings reach the backend. The query of a listing holds the fields of its filter that are set
    and not empty, under their names and in their order, whatever characters they hold; nothing else of the filter is
    in the URL. -/

namespace MfaConsole
namespace Wire

/-- A field of this name is set to this value, which is not empty. -/
def IsGiven (fields : List (String × Option String)) (name value : String) : Prop :=
  (name, some value) ∈ fields ∧ value ≠ ""

/-- The pairs are the fields that are given, in the order of the fields. -/
structure Names (fields : List (String × Option String)) (pairs : List (String × String)) : Prop where
  order : (pairs.map Prod.fst).Sublist (fields.map Prod.fst)
  mem_iff : ∀ name value, (name, value) ∈ pairs ↔ IsGiven fields name value

/-! ### The pairs of a filter -/

section Pairs
variable {fields others : List (String × Option String)} {pairs more : List (String × String)} {keys : List String}

theorem names_filterPairs (fields : List (String × Option String)) : Names fields (filterPairs fields) where
  order := by
    induction fields with
    | nil => exact .slnil
    | cons f fs ih =>
      rw [filterPairs, List.filterMap_cons]
      cases f.2.filter (· ≠ "") with
      | none => exact ih.cons _
      | some v => exact ih.cons_cons _
  mem_iff name value := by
    rw [filterPairs, List.mem_filterMap]
    constructor
    · rintro ⟨⟨n, a⟩, hm, hv⟩
      obtain ⟨v, ha, he⟩ := Option.map_eq_some_iff.mp hv
      obtain ⟨rfl, rfl⟩ := Prod.mk.inj he
      obtain ⟨rfl, nonempty⟩ := Option.filter_eq_some_iff.mp ha
      exact ⟨hm, of_decide_eq_true nonempty⟩
    · rintro ⟨hm, nonempty⟩
      exact ⟨_, hm, by simp [Option.filter_some, nonempty]⟩

theorem sublist_keys_cons {key : String} (h : (pairs.map Prod.fst).Sublist (key :: keys)) :
    (pairs.map Prod.fst).Sublist keys ∨
      ∃ value rest, pairs = (key, value) :: rest ∧ (rest.map Prod.fst).Sublist keys := by
  rcases List.sublist_cons_iff.mp h with h | ⟨tail, same, h⟩
  · exact Or.inl h
  · obtain ⟨⟨key', value⟩, rest, rfl, rfl, rfl⟩ := List.map_eq_cons_iff.mp same
    exact Or.inr ⟨value, rest, rfl, h⟩

theorem key_mem (h : (pairs.map Prod.fst).Sublist keys) {e : String × String} (he : e ∈ pairs) : e.1 ∈ keys :=
  h.subset (List.mem_map_of_mem he)

/-- Pairs with distinct keys in a given order are determined by which pairs there are. -/
theorem eq_of_order (distinct : keys.Nodup) (hp : (pairs.map Prod.fst).Sublist keys)
    (hm : (more.map Prod.fst).Sublist keys) (same : ∀ e, e ∈ pairs ↔ e ∈ more) : pairs = more := by
  induction keys generalizing pairs more with
  | nil =>
    rw [List.map_eq_nil_iff.mp (List.sublist_nil.mp hp), List.map_eq_nil_iff.mp (List.sublist_nil.mp hm)]
  | cons key keys ih =>
    obtain ⟨fresh, distinct⟩ := List.nodup_cons.mp distinct
    have other {ps : List (String × String)} {value : String} (h : (ps.map Prod.fst).Sublist keys) :
        (key, value) ∉ ps := fun hv => fresh (key_mem h hv)
    rcases sublist_keys_cons hp with without | ⟨value, rest, rfl, rest_order⟩
    · rcases sublist_keys_cons hm with without' | ⟨value', rest', rfl, -⟩
      · exact ih distinct without without' same
      · exact absurd ((same _).mpr List.mem_cons_self) (other without)
    · rcases sublist_keys_cons hm with without' | ⟨value', rest', rfl, rest_order'⟩
      · exact absurd ((same _).mp List.mem_cons_self) (other without')
      · obtain ⟨-, rfl⟩ : key = key ∧ value = value' := by
          simpa [other rest_order'] using (same (key, value)).mp List.mem_cons_self
        congr 1
        refine ih distinct rest_order rest_order' fun e => ?_
        by_cases he : e = (key, value)
        · exact iff_of_false (he ▸ other rest_order) (he ▸ other rest_order')
        · simpa [he] using same e

/-- Of fields with distinct names there is only one list of those that are given. -/
theorem Names.unique (h : Names fields pairs) (h' : Names others more)
    (names : fields.map Prod.fst = others.map Prod.fst) (distinct : (fields.map Prod.fst).Nodup)
    (agree : ∀ name value, IsGiven fields name value ↔ IsGiven others name value) : pairs = more := by
  refine eq_of_order distinct h.order (names ▸ h'.order) fun e => ?_
  rw [h.mem_iff e.1 e.2, h'.mem_iff e.1 e.2]
  exact agree e.1 e.2

end Pairs

/-! ### The two filters -/

/-- The fields of a filter, by the names that the backend has for them. -/
def MachineFilter.fields (f : MachineFilter) : List (String × Option String) :=
  [("hostname", f.hostname), ("ip", f.ip), ("id", f.id), ("resolver", f.resolver), ("any", f.any)]

/-- The fields of a filter, by the names that the backend has for them. -/
def TokenFilter.fields (f : TokenFilter) : List (String × Option String) :=
  [("serial", f.serial), ("application", f.application), ("machineid", f.machineId), ("resolver", f.resolver),
    ("hostname", f.hostname)]

end Wire

namespace Rest
open Wire Text

/-- What a listing asks for at a URL: cut at its first question mark, the whole URL is the one given and a query that
    is read as the fields given, and there is a question mark exactly if a field is given. -/
structure Asks (url : String) (fields : List (String × Option String)) (whole : String) : Prop where
  start : (cutOrAll '?' whole.toList).1 = url.toList
  names : Names fields (Form.readChars (cutOrAll '?' whole.toList).2)
  mark_iff : '?' ∈ whole.toList ↔ ∃ name value, IsGiven fields name value

section Listing
variable {url : String}

theorem cutOrAll_fullUrl (plain : '?' ∉ url.toList) (query : List (String × String)) :
    cutOrAll '?' (Request.get url query).fullUrl.toList = (url.toList, Form.queryChars query) := by
  have h := cutOrAll_withQuery plain query
  rwa [String.ofList_toList] at h

theorem fullUrl_eq_fullUrl_iff (plain : '?' ∉ url.toList) {query other : List (String × String)} :
    (Request.get url query).fullUrl = (Request.get url other).fullUrl ↔ query = other := by
  refine ⟨fun h => ?_, fun h => h ▸ rfl⟩
  have written : (url.toList, Form.queryChars query) = (url.toList, Form.queryChars other) := by
    rw [← cutOrAll_fullUrl plain, ← cutOrAll_fullUrl plain, h]
  have read := congrArg Form.readChars (Prod.mk.inj written).2
  rwa [Form.readChars_queryChars, Form.readChars_queryChars] at read

theorem mark_mem_fullUrl_iff (plain : '?' ∉ url.toList) {query : List (String × String)} :
    '?' ∈ (Request.get url query).fullUrl.toList ↔ query ≠ [] := by
  show '?' ∈ (Form.withQuery url query).toList ↔ query ≠ []
  rw [Form.withQuery]
  split
  · next none => exact iff_of_false plain fun h => h none
  · next some => exact iff_of_true (by simp [String.toList_append]) some

theorem asks_get (plain : '?' ∉ url.toList) (fields : List (String × Option String)) :
    Asks url fields (Request.get url (filterPairs fields)).fullUrl where
  start := by rw [cutOrAll_fullUrl plain]
  names := by
    rw [cutOrAll_fullUrl plain, Form.readChars_queryChars]
    exact names_filterPairs fields
  mark_iff := by
    have pairs := (names_filterPairs fields).mem_iff
    rw [mark_mem_fullUrl_iff plain]
    constructor
    · intro some
      obtain ⟨e, he⟩ := List.exists_mem_of_ne_nil _ some
      exact ⟨e.1, e.2, (pairs e.1 e.2).mp he⟩
    · rintro ⟨name, value, given⟩
      exact List.ne_nil_of_mem ((pairs name value).mpr given)

theorem fullUrl_filterPairs_iff (plain : '?' ∉ url.toList) {fields others : List (String × Option String)}
    (names : fields.map Prod.fst = others.map Prod.fst) (distinct : (fields.map Prod.fst).Nodup) :
    (Request.get url (filterPairs fields)).fullUrl = (Request.get url (filterPairs others)).fullUrl ↔
      ∀ name value, IsGiven fields name value ↔ IsGiven others name value := by
  rw [fullUrl_eq_fullUrl_iff plain]
  constructor
  · intro same name value
    rw [← (names_filterPairs fields).mem_iff, ← (names_filterPairs others).mem_iff, same]
  · exact (names_filterPairs fields).unique (names_filterPairs others) names distinct

/-- Every filter of machines and of tokens reaches the backend as it is set: from the URL of its listing the fields
    given are read back, with their names and in their order, and without such a field there is no query. So two filters
    of a kind have one URL exactly if the same fields are given in both, with the same values. -/
theorem filters_asked (plain : '?' ∉ url.toList) :
    (∀ f : MachineFilter, Asks url f.fields (Request.get url f.query).fullUrl) ∧
    (∀ f : TokenFilter, Asks url f.fields (Request.get url f.query).fullUrl) ∧
    (∀ f g : MachineFilter, (Request.get url f.query).fullUrl = (Request.get url g.query).fullUrl ↔
      ∀ name value, IsGiven f.fields name value ↔ IsGiven g.fields name value) ∧
    ∀ f g : TokenFilter, (Request.get url f.query).fullUrl = (Request.get url g.query).fullUrl ↔
      ∀ name value, IsGiven f.fields name value ↔ IsGiven g.fields name value := by
  refine ⟨fun f => asks_get plain f.fields, fun f => asks_get plain f.fields, fun f g => ?_, fun f g => ?_⟩
  · exact fullUrl_filterPairs_iff plain rfl (by simp)
  · exact fullUrl_filterPairs_iff plain rfl (by simp)

/-- A filter with an empty field, and one with the characters that separate pairs. -/
theorem filters_asked_separators :
    '?' ∉ "/machine/".toList ∧
    Asks "/machine/" [("hostname", some ""), ("ip", none), ("id", some "a&b=c+ %é?"), ("resolver", none), ("any", none)]
      "/machine/?id=a%26b%3Dc%2B+%25%C3%A9%3F" := by
  have plain : '?' ∉ "/machine/".toList := by decide
  obtain ⟨asks, -⟩ := filters_asked plain
  have asked := asks ⟨some "", none, some "a&b=c+ %é?", none, none⟩
  have written :
      (Request.get "/machine/" (MachineFilter.query ⟨some "", none, some "a&b=c+ %é?", none, none⟩)).fullUrl =
        "/machine/?id=a%26b%3Dc%2B+%25%C3%A9%3F" := by decide +kernel
  rw [written] at asked
  exact ⟨plain, asked⟩

end Listing
end Rest
end MfaConsole
