import Mathlib.Data.List.Nodup
import Mathlib.Logic.Relation
import MfaConsole.Proofs.Wire.ReadBack

/-! What the backend may add to an answer, and what it may leave out of one. A record may hold members of names that its
    reader does not know, and a field may be absent where its absence says the same; neither is seen, at whatever place
    of an answer the record stands. -/

namespace MfaConsole
namespace Wire

variable {α : Type}

/-! ### Records as objects -/

/-- The fields of a record in an object: those that have to be there, and those that may be absent, each with the value
    that its absence stands for. -/
structure Layout where
  needed : List String
  spare : List (String × Json)
  distinct : (needed ++ spare.map (·.1)).Nodup := by decide

namespace Layout
variable {l : Layout} {ms ms' : List (String × Json)}

def names (l : Layout) : List String := l.needed ++ l.spare.map (·.1)

/-- A record gains a member of a name that is none of its own, or loses a field that says what its absence says. -/
inductive Varies (l : Layout) : Json → Json → Prop
  | gains (before after : List (String × Json)) {name : String} (value : Json) (foreign : name ∉ l.names) :
      l.Varies (.object (before ++ after)) (.object (before ++ (name, value) :: after))
  | loses {members : List (String × Json)} {name : String} {idle : Json} (spare : (name, idle) ∈ l.spare)
      (holds : members.lookup name = some idle) :
      l.Varies (.object members) (.object (members.filter fun m => m.1 ≠ name))

/-- Members that say the same about each field. -/
structure Same (l : Layout) (ms ms' : List (String × Json)) : Prop where
  needed : ∀ name ∈ l.needed, ms'.lookup name = ms.lookup name
  spare : ∀ f ∈ l.spare, (ms'.lookup f.1).getD f.2 = (ms.lookup f.1).getD f.2

theorem Same.of_lookup (h : ∀ name ∈ l.names, ms'.lookup name = ms.lookup name) : l.Same ms ms' where
  needed name mem := h name (List.mem_append_left _ mem)
  spare f mem := by rw [h f.1 (List.mem_append_right _ (List.mem_map_of_mem mem))]

theorem same_of_gain (before after : List (String × Json)) {name : String} (value : Json) (foreign : name ∉ l.names) :
    l.Same (before ++ after) (before ++ (name, value) :: after) := by
  refine .of_lookup fun other mem => ?_
  have ne : other ≠ name := by
    rintro rfl
    exact foreign mem
  rw [List.lookup_append, List.lookup_append, KeyMap.lookup_cons, if_neg ne]

theorem same_of_loss {name : String} {idle : Json} (mem : (name, idle) ∈ l.spare) (holds : ms.lookup name = some idle) :
    l.Same ms (ms.filter fun m => m.1 ≠ name) := by
  have found (other : String) :
      (ms.filter fun m => m.1 ≠ name).lookup other = if other = name then none else ms.lookup other := by
    rw [KeyMap.lookup_filter_keys (fun k => k ≠ name)]
    by_cases same : other = name <;> simp [same]
  obtain ⟨-, spare, apart⟩ := List.nodup_append.mp l.distinct
  constructor
  · intro other hother
    rw [found, if_neg (apart other hother name (List.mem_map_of_mem mem))]
  · intro f hf
    rw [found]
    split
    · next same =>
      -- No other spare field has this name.
      obtain rfl : f = (name, idle) := List.inj_on_of_nodup_map spare hf mem same
      rw [holds]
      rfl
    · rfl

theorem Varies.same {v v' : Json} (h : l.Varies v v') :
    ∃ ms ms', v = .object ms ∧ v' = .object ms' ∧ l.Same ms ms' := by
  cases h with
  | gains before after value foreign => exact ⟨_, _, rfl, rfl, same_of_gain before after value foreign⟩
  | loses spare holds => exact ⟨_, _, rfl, rfl, same_of_loss spare holds⟩

end Layout

/-- A change of JSON that a reader does not see. It makes no null and changes none. -/
structure Unseen (read : Reader α) (change : Json → Json → Prop) : Prop where
  same : ∀ {v v' : Json}, change v v' → read v' = read v
  given : ∀ {v v' : Json}, change v v' → v ≠ .null ∧ v' ≠ .null

theorem Unseen.nullable {read : Reader α} {change : Json → Json → Prop} (h : Unseen read change) {v v' : Json}
    (hv : change v v') : nullable read v' = nullable read v := by
  obtain ⟨given, given'⟩ := h.given hv
  rw [nullable_of_ne_null given, nullable_of_ne_null given', h.same hv]

theorem Layout.unseen {l : Layout} {read : Reader α}
    (h : ∀ ms ms', l.Same ms ms' → read (.object ms') = read (.object ms)) : Unseen read l.Varies where
  same hv := by
    obtain ⟨ms, ms', rfl, rfl, same⟩ := hv.same
    exact h ms ms' same
  given hv := by
    obtain ⟨ms, ms', rfl, rfl, -⟩ := hv.same
    exact ⟨Json.noConfusion, Json.noConfusion⟩

/-! ### Places inside a value -/

section Places
variable {read : Reader α} {change : Json → Json → Prop} {v v' : Json}

/-- A change of one item of a list. -/
inductive AtItem (change : Json → Json → Prop) : Json → Json → Prop
  | mk (before after : List Json) {v v' : Json} (h : change v v') :
      AtItem change (.array (before ++ v :: after)) (.array (before ++ v' :: after))

/-- A change of one member of an object. -/
inductive AtMember (change : Json → Json → Prop) : Json → Json → Prop
  | mk (before after : List (String × Json)) (name : String) {v v' : Json} (h : change v v') :
      AtMember change (.object (before ++ (name, v) :: after)) (.object (before ++ (name, v') :: after))

/-- Fields of a record that differ in one of them, which has a place among listed fields and a name among named ones. -/
inductive Fields.Differ (place : Nat) (name : String) (change : Json → Json → Prop) : Fields → Fields → Prop
  | named (before after : List (String × Json)) {v v' : Json} (first : ∀ m ∈ before, m.1 ≠ name) (h : change v v') :
      Differ place name change (.named (before ++ (name, v) :: after)) (.named (before ++ (name, v') :: after))
  | listed (before after : List Json) {v v' : Json} (stands : before.length = place) (h : change v v') :
      Differ place name change (.listed (before ++ v :: after)) (.listed (before ++ v' :: after))

/-- A change of one field of a record that has `count` fields. -/
def AtField (count place : Nat) (name : String) (change : Json → Json → Prop) (v v' : Json) : Prop :=
  ∃ f f', Fields.of? count v = some f ∧ Fields.of? count v' = some f' ∧ Fields.Differ place name change f f'

theorem Unseen.listOf (h : Unseen read change) : Unseen (listOf read) (AtItem change) where
  same hv := by
    obtain ⟨before, after, hv⟩ := hv
    simp only [Wire.listOf, List.mapM_append, List.mapM_cons, h.same hv]
  given hv := by
    cases hv
    exact ⟨Json.noConfusion, Json.noConfusion⟩

theorem Unseen.mapOf (h : Unseen read change) : Unseen (mapOf read) (AtMember change) where
  same hv := by
    obtain ⟨before, after, name, hv⟩ := hv
    simp only [Wire.mapOf, members, List.mapM_append, List.mapM_cons, h.same hv]
  given hv := by
    cases hv
    exact ⟨Json.noConfusion, Json.noConfusion⟩

end Places

namespace Fields.Differ
variable {change : Json → Json → Prop} {place : Nat} {name : String} {f f' : Fields} (d : Differ place name change f f')
include d

theorem found : ∃ v v', f.find? place name = some v ∧ f'.find? place name = some v' ∧ change v v' := by
  cases d with
  | named before after first h =>
    have here (w : Json) : (before ++ (name, w) :: after).lookup name = some w := by
      rw [List.lookup_append, List.lookup_eq_none_iff.mpr fun m hm => by simpa using (first m hm).symm,
        KeyMap.lookup_cons, if_pos rfl, Option.none_or]
    exact ⟨_, _, here _, here _, h⟩
  | listed before after stands h => exact ⟨_, _, by simp [find?, ← stands], by simp [find?, ← stands], h⟩

variable {place' : Nat} {name' : String} (elsewhere : place' ≠ place) (other : name' ≠ name) (read : Reader α)
include elsewhere other

theorem find?_other : f'.find? place' name' = f.find? place' name' := by
  cases d with
  | named before after first h =>
    simp only [find?, List.lookup_append, KeyMap.lookup_cons, if_neg other]
  | listed before after stands h =>
    simp only [find?, List.getElem?_append, List.getElem?_cons]
    split
    · rfl
    · rw [if_neg (by omega), if_neg (by omega)]

theorem withDefault_other (default : α) :
    f'.withDefault place' name' default read = f.withDefault place' name' default read := by
  rw [withDefault, withDefault, d.find?_other elsewhere other]

theorem optional_other : f'.optional place' name' read = f.optional place' name' read := by
  rw [optional.eq_def, optional.eq_def, d.find?_other elsewhere other]
  generalize f.find? place' name' = found
  cases found with
  | some v => rfl
  | none => cases d <;> rfl

end Fields.Differ

section Fields
variable {read : Reader α} {change : Json → Json → Prop} {place : Nat} {name : String} {f f' : Fields}

theorem Unseen.required (h : Unseen read change) (d : Fields.Differ place name change f f') :
    f'.required place name read = f.required place name read := by
  obtain ⟨v, v', found, found', hv⟩ := d.found
  rw [Fields.required, Fields.required, found, found', Option.bind_some, Option.bind_some, h.same hv]

theorem Unseen.optional (h : Unseen read change) (d : Fields.Differ place name change f f') :
    f'.optional place name read = f.optional place name read := by
  obtain ⟨v, v', found, found', hv⟩ := d.found
  rw [Fields.optional.eq_def, Fields.optional.eq_def, found, found']
  exact h.nullable hv

/-- A record whose fields are read with no eye for the change of one of them. -/
theorem AtField.read_eq {count : Nat} {v v' : Json} (hv : AtField count place name change v v')
    {readFields : Fields → Option α}
    (h : ∀ {f f'}, Fields.Differ place name change f f' → readFields f' = readFields f) :
    (Fields.of? count v').bind readFields = (Fields.of? count v).bind readFields := by
  obtain ⟨f, f', hf, hf', d⟩ := hv
  rw [hf, hf', Option.bind_some, Option.bind_some, h d]

theorem AtField.ne_null {count : Nat} {v v' : Json} (hv : AtField count place name change v v') :
    v ≠ .null ∧ v' ≠ .null := by
  obtain ⟨f, f', hf, hf', -⟩ := hv
  constructor
  · rintro rfl
    cases hf
  · rintro rfl
    cases hf'

end Fields

/-! ### Records -/

namespace Machine

def layout : Layout where
  needed := []
  spare := [("id", .string ""), ("hostname", .string ""), ("ip", .string ""), ("resolver_name", .string "")]

theorem unseen : Unseen read layout.Varies := by
  refine Layout.unseen fun ms ms' ⟨_, spare⟩ => ?_
  simp only [layout, List.forall_mem_cons] at spare
  simp [read, Fields.of?, spare]

end Machine

namespace ServerDefinition

def layout : Layout where
  needed := ["url"]
  spare := [("id", .null), ("tls", .bool true), ("description", .string "")]

theorem unseen : Unseen read layout.Varies := by
  refine Layout.unseen fun ms ms' ⟨needed, spare⟩ => ?_
  simp only [layout, List.forall_mem_cons] at needed spare
  simp [read, Fields.of?, needed, spare]

end ServerDefinition

namespace AttachedToken

def layout : Layout where
  needed := ["id", "serial", "application"]
  spare := [("machine_id", .null), ("resolver", .null), ("hostname", .null), ("type", .null), ("options", .object [])]

theorem unseen : Unseen read layout.Varies := by
  refine Layout.unseen fun ms ms' ⟨needed, spare⟩ => ?_
  simp only [layout, List.forall_mem_cons] at needed spare
  simp [read, Fields.of?, needed, spare]

end AttachedToken

namespace ClientEntry

def layout : Layout where
  needed := []
  spare := [("hostname", .null), ("ip", .null), ("lastseen", .null)]

theorem unseen : Unseen read layout.Varies := by
  refine Layout.unseen fun ms ms' ⟨_, spare⟩ => ?_
  simp only [layout, List.forall_mem_cons] at spare
  simp [read, Fields.of?, spare]

end ClientEntry

namespace Refusal

def layout : Layout where
  needed := []
  spare := [("code", .null), ("message", .string "")]

theorem unseen : Unseen read layout.Varies := by
  refine Layout.unseen fun ms ms' ⟨_, spare⟩ => ?_
  simp only [layout, List.forall_mem_cons] at spare
  simp [read, Fields.of?, spare]

end Refusal

namespace TokenPage

def layout : Layout where
  needed := ["tokens"]
  spare := [("count", .integer 0)]

/-- A token of a listing varies, or the page around the tokens. -/
inductive Varies : Json → Json → Prop
  | token {v v' : Json} (h : AtItem AttachedToken.layout.Varies v v') : Varies v v'
  | page {v v' : Json} (h : layout.Varies v v') : Varies v v'
  | pageToken {ms ms' : List (String × Json)}
      (h : Fields.Differ 0 "tokens" (AtItem AttachedToken.layout.Varies) (.named ms) (.named ms')) :
      Varies (.object ms) (.object ms')

theorem read_object (ms : List (String × Json)) : read (.object ms) = readPage (.object ms) := rfl

theorem unseen_page : Unseen read layout.Varies := by
  refine Layout.unseen fun ms ms' ⟨needed, spare⟩ => ?_
  simp only [layout, List.forall_mem_cons] at needed spare
  have count (ms : List (String × Json)) :
      (Fields.named ms).withDefault 1 "count" 0 uint64 = uint64 ((ms.lookup "count").getD (.integer 0)) :=
    Fields.withDefault_count ms 1 "count" 0
  simp only [read_object, readPage, Fields.required_named, count, needed, spare]

theorem unseen : Unseen read Varies where
  same hv := by
    have tokens := AttachedToken.unseen.listOf
    cases hv with
    | token h =>
      rw [read, read, tokens.same h]
      cases h
      rfl
    | page h => exact unseen_page.same h
    | pageToken d =>
      rw [read_object, read_object, readPage, readPage]
      simp only [tokens.required d, d.withDefault_other (by decide : 1 ≠ 0) (by decide : "count" ≠ "tokens")]
  given hv := by
    cases hv with
    | token h => exact AttachedToken.unseen.listOf.given h
    | page h => exact unseen_page.given h
    | pageToken d => exact ⟨Json.noConfusion, Json.noConfusion⟩

end TokenPage

/-! ### Answers -/

section Answers
variable {payload : Reader α} {change : Json → Json → Prop}

namespace Outcome

def layout : Layout where
  needed := []
  spare := [("status", .bool false), ("value", .null), ("error", .null)]

/-- An outcome varies, or its payload, or its error. -/
inductive Varies (change : Json → Json → Prop) : Json → Json → Prop
  | itself {v v' : Json} (h : layout.Varies v v') : Varies change v v'
  | value {v v' : Json} (h : AtField 3 1 "value" change v v') : Varies change v v'
  | error {v v' : Json} (h : AtField 3 2 "error" Refusal.layout.Varies v v') : Varies change v v'

theorem unseen_itself : Unseen (read payload) layout.Varies := by
  refine Layout.unseen fun ms ms' ⟨_, spare⟩ => ?_
  simp only [layout, List.forall_mem_cons] at spare
  simp [read, Fields.of?, spare]

theorem unseen (h : Unseen payload change) : Unseen (read payload) (Varies change) where
  same hv := by
    cases hv with
    | itself hv => exact unseen_itself.same hv
    | value hv =>
      refine hv.read_eq fun d => ?_
      rw [d.withDefault_other (by decide) (by decide), h.optional d, d.optional_other (by decide) (by decide)]
    | error hv =>
      refine hv.read_eq fun d => ?_
      rw [d.withDefault_other (by decide) (by decide), d.optional_other (by decide) (by decide),
        Refusal.unseen.optional d]
  given hv := by
    cases hv with
    | itself hv =>
      have whole : Unseen (read payload) layout.Varies := unseen_itself
      exact whole.given hv
    | value hv => exact hv.ne_null
    | error hv => exact hv.ne_null

end Outcome

namespace Envelope

def layout : Layout where
  needed := ["result"]
  spare := [("version", .null), ("versionnumber", .null), ("detail", .null)]

/-- An answer varies around its result, or within it. -/
inductive Varies (change : Json → Json → Prop) : Json → Json → Prop
  | itself {v v' : Json} (h : layout.Varies v v') : Varies change v v'
  | result {v v' : Json} (h : AtField 4 0 "result" (Outcome.Varies change) v v') : Varies change v v'

theorem unseen_itself : Unseen (read payload) layout.Varies := by
  refine Layout.unseen fun ms ms' ⟨needed, spare⟩ => ?_
  simp only [layout, List.forall_mem_cons] at needed spare
  simp [read, Fields.of?, needed, spare]

theorem read_of_varies (h : Unseen payload change) {v v' : Json} (hv : Varies change v v') :
    read payload v' = read payload v := by
  cases hv with
  | itself hv => exact unseen_itself.same hv
  | result hv =>
    refine hv.read_eq fun d => ?_
    rw [(Outcome.unseen h).required d, d.optional_other (by decide) (by decide),
      d.optional_other (by decide) (by decide), d.optional_other (by decide) (by decide)]

end Envelope
end Answers

namespace Payload

/-- What may vary within a payload. -/
def Varies : Payload → Json → Json → Prop
  | .servers => AtMember ServerDefinition.layout.Varies
  | .machines => AtItem Machine.layout.Varies
  | .tokens => TokenPage.Varies
  | .clients => AtMember (AtItem ClientEntry.layout.Varies)
  | .anything | .truth | .applications => fun _ _ => False

theorem unseen (p : Payload) : Unseen p.read p.Varies := by
  cases p with
  | servers => exact ServerDefinition.unseen.mapOf
  | machines => exact Machine.unseen.listOf
  | tokens => exact TokenPage.unseen
  | clients => exact ClientEntry.unseen.listOf.mapOf
  | anything | truth | applications => exact ⟨False.elim, False.elim⟩

end Payload
end Wire

/-- An answer that varies in any number of its records is accepted as before, and is read as the same answer. -/
theorem readEnvelope_varied (p : Wire.Payload) {body body' : Json}
    (h : Relation.ReflTransGen (Wire.Envelope.Varies p.Varies) body body') (e : Wire.Envelope p.Content)
    (reason reason' : String) :
    Rest.readEnvelope p.read body' reason' = .ok e ↔ Rest.readEnvelope p.read body reason = .ok e := by
  rw [Rest.readEnvelope_eq_ok_iff, Rest.readEnvelope_eq_ok_iff]
  induction h with
  | refl => rfl
  | tail _ last ih => rw [← ih, Wire.Envelope.read_of_varies p.unseen last]

/-- A page of tokens loses its count of none, and its token gains a member that is no field of a token. -/
theorem readEnvelope_varied_page :
    let answer (page : List (String × Json)) :=
      Json.object [("result", .object [("status", .bool true), ("value", .object page)])]
    let token := [("application", Json.string "luks"), ("id", .integer 7), ("serial", .string "OATH1")]
    let plain := answer [("count", .integer 0), ("tokens", .array [.object token])]
    let varied := answer [("tokens", .array [.object (token ++ [("token_type", .string "hotp")])])]
    ∃ e, Rest.readEnvelope (Wire.Payload.read .tokens) plain "" = .ok e ∧
      Rest.readEnvelope (Wire.Payload.read .tokens) varied "" = .ok e := by
  intro answer token plain varied
  have within {page page' : List (String × Json)} (h : Wire.TokenPage.Varies (.object page) (.object page')) :
      Wire.Envelope.Varies (Wire.Payload.Varies .tokens) (answer page) (answer page') :=
    .result ⟨_, _, rfl, rfl, .named [] [] (by simp)
      (.value ⟨_, _, rfl, rfl, .named [("status", .bool true)] [] (by simp) h⟩)⟩
  have spare : ("count", Json.integer 0) ∈ Wire.TokenPage.layout.spare := List.mem_cons_self
  have loss : Wire.Envelope.Varies (Wire.Payload.Varies .tokens) plain (answer [("tokens", .array [.object token])]) :=
    within (.page (.loses spare rfl))
  have gain : Wire.Envelope.Varies (Wire.Payload.Varies .tokens) (answer [("tokens", .array [.object token])]) varied :=
    within (.pageToken (.named [] [] (by simp) (.mk [] [] (.gains token [] (.string "hotp") (by decide)))))
  exact ⟨_, rfl, (readEnvelope_varied .tokens (.tail (.single loss) gain) _ "" "").mpr rfl⟩

end MfaConsole
