import MfaConsole.Host.Relay

/-! What the relay does with a request. A request that is refused leaves no trace at the backend; any other is sent
    once, with two of its headers at most, and the answer comes back as it is. -/

namespace MfaConsole
namespace Host

namespace Headers

theorem sameName_eq (a b : String) :
    sameName a b = decide (a.toList.map Char.toLower = b.toList.map Char.toLower) := by
  rw [Bool.eq_iff_iff, decide_eq_true_iff, sameName, beq_iff_eq, ← String.toList_inj, String.toList_map,
    String.toList_map]

/-- A header of this name has this value, and none before it has the name. -/
def IsFirst (hs : Headers) (name : String) (value : List UInt8) : Prop :=
  ∃ before own after, hs = before ++ (own, value) :: after ∧ sameName own name = true ∧
    ∀ h ∈ before, sameName h.1 name = false

theorem first?_eq_some_iff {hs : Headers} {name : String} {value : List UInt8} :
    hs.first? name = some value ↔ hs.IsFirst name value := by
  rw [first?, Option.map_eq_some_iff]
  constructor
  · rintro ⟨⟨own, _⟩, found, rfl⟩
    obtain ⟨same, before, after, whole, others⟩ := List.find?_eq_some_iff_append.mp found
    exact ⟨before, own, after, whole, same, fun h hm => by simpa using others h hm⟩
  · rintro ⟨before, own, after, whole, same, others⟩
    refine ⟨(own, value), List.find?_eq_some_iff_append.mpr ⟨same, before, after, whole, fun h hm => ?_⟩, rfl⟩
    rw [others h hm]
    rfl

/-- The names of the headers that are relayed. -/
def relayed : List String := ["authorization", "content-type"]

end Headers

/-- A carrier that also writes down what it is given to send. -/
def Carrier.recorded {ν : Type} (carry : Carrier ν) : Carrier (List Outgoing × ν) := fun s o =>
  let (network, outcome) := carry s.2 o
  ((s.1 ++ [o], network), outcome)

namespace Relay

/-- What is sent for a request: the same method and body, the URL at the backend for its path and query, and of its
    headers the first of each of the names that are relayed. -/
structure Sends (r : Relay) (q : Request) (o : Outgoing) : Prop where
  method : o.method = q.method
  url : r.target? q.path q.target.query = some o.url
  body : o.body = q.body
  header_iff : ∀ name value, (name, value) ∈ o.headers ↔ name ∈ Headers.relayed ∧ q.headers.IsFirst name value
  once : (o.headers.map Prod.fst).Nodup

/-- An answer of the backend as it is passed on: its status, its content and the type of it, and no other header. -/
structure PassesOn (i : Incoming) (a : Response) : Prop where
  status : a.status = i.status
  content : a.content = .octets i.body
  type_iff : ∀ value, a.contentType = some value ↔ i.headers.IsFirst "content-type" value
  nothingElse : a.allow = none ∧ a.location = none

/-- What becomes of a request: what is sent for it, the network after that, and the answer to it. -/
inductive Handles {ν : Type} (r : Relay) (carry : Carrier ν) (network : ν) (q : Request) :
    List Outgoing → ν → Response → Prop where
  | notRelayed {a : Response} (path : backendPath? r.mount q.path = none) (status : a.status = 404) :
      Handles r carry network q [] network a
  | tooLong {a : Response} {below : String} (path : backendPath? r.mount q.path = some below)
      (long : 2 * 1024 * 1024 < q.body.size) (status : a.status = 400) : Handles r carry network q [] network a
  | unanswered {a : Response} {below : String} {o : Outgoing} {after : ν} {reason : String}
      (path : backendPath? r.mount q.path = some below) (short : q.body.size ≤ 2 * 1024 * 1024) (sends : r.Sends q o)
      (carried : carry network o = (after, .error reason)) (status : a.status = 502) :
      Handles r carry network q [o] after a
  | answered {a : Response} {below : String} {o : Outgoing} {after : ν} {i : Incoming}
      (path : backendPath? r.mount q.path = some below) (short : q.body.size ≤ 2 * 1024 * 1024) (sends : r.Sends q o)
      (carried : carry network o = (after, .ok i)) (passed : PassesOn i a) : Handles r carry network q [o] after a

/-- Two requests differ in nothing but headers that are not relayed. -/
structure Alike (q q' : Request) : Prop where
  method : q.method = q'.method
  target : q.target = q'.target
  body : q.body = q'.body
  first_iff : ∀ name ∈ Headers.relayed, ∀ value, q.headers.IsFirst name value ↔ q'.headers.IsFirst name value

variable {ν : Type} {r : Relay} {q q' : Request} {o : Outgoing}

/-! ### Headers -/

theorem mem_relayedHeaders_iff {hs : Headers} {name : String} {value : List UInt8} :
    (name, value) ∈ relayedHeaders hs ↔ name ∈ Headers.relayed ∧ hs.IsFirst name value := by
  rw [relayedHeaders, List.mem_filterMap, ← Headers.first?_eq_some_iff]
  constructor
  · rintro ⟨n, hn, h⟩
    obtain ⟨v, hv, he⟩ := Option.map_eq_some_iff.mp h
    obtain ⟨rfl, rfl⟩ := Prod.mk.inj he
    exact ⟨hn, hv⟩
  · rintro ⟨hn, hv⟩
    exact ⟨name, hn, by rw [hv, Option.map_some]⟩

theorem nodup_relayedHeaders (hs : Headers) : ((relayedHeaders hs).map Prod.fst).Nodup := by
  rw [relayedHeaders]
  cases first : hs.first? "authorization" <;> cases second : hs.first? "content-type" <;> simp [first, second]

theorem relayedHeaders_congr {hs hs' : Headers}
    (h : ∀ name ∈ Headers.relayed, ∀ value, hs.IsFirst name value ↔ hs'.IsFirst name value) :
    relayedHeaders hs = relayedHeaders hs' := by
  have same : ∀ name ∈ Headers.relayed, hs.first? name = hs'.first? name := fun name hn => Option.ext fun value => by
    rw [Headers.first?_eq_some_iff, Headers.first?_eq_some_iff]
    exact h name hn value
  have first := same "authorization" (by decide)
  have second := same "content-type" (by decide)
  simp only [relayedHeaders, List.filterMap_cons, List.filterMap_nil, first, second]

/-! ### What is sent and answered -/

theorem target?_eq_none_iff {path : String} {query : Option String} :
    r.target? path query = none ↔ backendPath? r.mount path = none := Option.map_eq_none_iff

theorem outgoing_cases (r : Relay) (q : Request) :
    backendPath? r.mount q.path = none ∧ r.outgoing q = .error .notRelayed ∨
    ∃ below, backendPath? r.mount q.path = some below ∧
      (mostOctets < q.body.size ∧ r.outgoing q = .error .tooLong ∨
        q.body.size ≤ mostOctets ∧ ∃ o, r.outgoing q = .ok o ∧ r.Sends q o) := by
  cases hb : backendPath? r.mount q.path with
  | none =>
    refine Or.inl ⟨rfl, ?_⟩
    rw [outgoing, target?_eq_none_iff.mpr hb]
  | some below =>
    refine Or.inr ⟨below, rfl, ?_⟩
    cases ht : r.target? q.path q.target.query with
    | none => cases (target?_eq_none_iff.mp ht).symm.trans hb
    | some url =>
      rw [outgoing, ht]
      by_cases long : mostOctets < q.body.size
      · exact Or.inl ⟨long, if_pos long⟩
      · exact Or.inr ⟨Nat.le_of_not_lt long, _, if_neg long, rfl, ht, rfl, fun _ _ => mem_relayedHeaders_iff,
          nodup_relayedHeaders _⟩

theorem passesOn_relayedResponse (i : Incoming) : PassesOn i (relayedResponse (.ok i)) where
  status := rfl
  content := rfl
  type_iff _ := Headers.first?_eq_some_iff
  nothingElse := ⟨rfl, rfl⟩

theorem outgoing_congr (h : Alike q q') : r.outgoing q = r.outgoing q' := by
  simp only [outgoing, Request.path, h.method, h.target, h.body, relayedHeaders_congr h.first_iff]

/-- Whatever the carrier, a request is handled by its path and its length, and nothing is handed to the carrier but what
    is sent for it. Requests that are alike are handled in the same way, so that no other header of a request ever
    leaves the host. -/
theorem respond_handles (r : Relay) (carry : Carrier ν) (network : ν) (earlier : List Outgoing) (q : Request) :
    (∃ sent after a, r.respond carry.recorded (earlier, network) q = ((earlier ++ sent, after), a) ∧
      r.Handles carry network q sent after a) ∧
    ∀ q', Alike q q' →
      r.respond carry.recorded (earlier, network) q = r.respond carry.recorded (earlier, network) q' := by
  refine ⟨?_, fun q' alike => by rw [respond, respond, outgoing_congr alike]⟩
  rcases outgoing_cases r q with ⟨path, refused⟩ | ⟨below, path, ⟨long, refused⟩ | ⟨short, o, sends, made⟩⟩
  · refine ⟨[], network, Refusal.response .notRelayed, ?_, .notRelayed path rfl⟩
    rw [respond, refused, List.append_nil]
  · refine ⟨[], network, Refusal.response .tooLong, ?_, .tooLong path long rfl⟩
    rw [respond, refused, List.append_nil]
  · rcases carried : carry network o with ⟨after, reason | i⟩
    · refine ⟨[o], after, relayedResponse (.error reason), ?_, .unanswered path short made carried rfl⟩
      rw [respond, sends]
      simp only [Carrier.recorded, carried]
    · refine ⟨[o], after, _, ?_, .answered path short made carried (passesOn_relayedResponse i)⟩
      rw [respond, sends]
      simp only [Carrier.recorded, carried]

/-- A request for the machines of a console that is mounted at `/console`. -/
def machinesRequest (headers : Headers) : Request :=
  { method := "GET", target := ⟨"/console/machine/", some "any=a"⟩, headers, body := ByteArray.empty }

/-- A network without a backend, which counts what it is given. -/
def unreachable : Carrier Nat := fun n _ => (n + 1, .error "down")

theorem alike_machinesRequest : Alike (machinesRequest [("Authorization", [97])])
    (machinesRequest [("cookie", [98]), ("AUTHORIZATION", [97]), ("authorization", [99])]) := by
  refine ⟨rfl, rfl, rfl, fun name hn value => ?_⟩
  have same : Headers.first? [("Authorization", [97])] name =
      Headers.first? [("cookie", [98]), ("AUTHORIZATION", [97]), ("authorization", [99])] name := by
    simp only [Headers.first?, Headers.sameName_eq]
    revert name
    decide
  rw [← Headers.first?_eq_some_iff, ← Headers.first?_eq_some_iff, machinesRequest, machinesRequest, same]

/-- A cookie and a second authorization make no difference. -/
theorem respond_handles_cookie :
    Alike (machinesRequest [("Authorization", [97])])
      (machinesRequest [("cookie", [98]), ("AUTHORIZATION", [97]), ("authorization", [99])]) ∧
    (Relay.mk "http://backend" "/console").respond unreachable.recorded ([], 0)
        (machinesRequest [("Authorization", [97])]) =
      (Relay.mk "http://backend" "/console").respond unreachable.recorded ([], 0)
        (machinesRequest [("cookie", [98]), ("AUTHORIZATION", [97]), ("authorization", [99])]) :=
  ⟨alike_machinesRequest, (respond_handles _ unreachable 0 [] _).2 _ alike_machinesRequest⟩

end Relay
end Host
end MfaConsole
