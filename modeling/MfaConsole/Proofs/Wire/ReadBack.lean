import MfaConsole.Proofs.KeyMap
import MfaConsole.Rest.Failure
import MfaConsole.Wire.Client
import MfaConsole.Wire.Server
import MfaConsole.Wire.Token

/-! What is written of a value that was read is read as the same value again. A reader takes many spellings of one
    value, and the writer has one of them. -/

namespace MfaConsole
namespace Wire

variable {α : Type}

/-! ### Values -/

/-- What is written of a value that was read is read as that value again, and it is null only if null was read. -/
structure ReadsBack (read : Reader α) (write : α → Json) : Prop where
  again : ∀ {v : Json} {a : α}, read v = some a → read (write a) = some a
  given : ∀ {v : Json} {a : α}, read v = some a → v ≠ .null → write a ≠ .null

theorem ReadsBack.of_read_write {read : Reader α} {write : α → Json} (h : ∀ a, read (write a) = some a)
    (given : ∀ a, write a ≠ .null) : ReadsBack read write :=
  ⟨fun _ => h _, fun _ _ => given _⟩

theorem readsBack_anything : ReadsBack anything id where
  again _ := rfl
  given h given := by
    cases h
    exact given

@[simp] theorem int64_ofInt64 (n : Int64) : int64 (ofInt64 n) = some n := by
  rw [ofInt64, int64, if_pos ⟨n.minValue_le_toInt, n.toInt_le⟩, Int64.ofInt_toInt]

@[simp] theorem uint64_integer (n : UInt64) : uint64 (.integer n.toNat) = some n := by
  have fits : (n.toNat : Int) < UInt64.size := by exact_mod_cast n.toNat_lt
  rw [uint64, if_pos ⟨Int.natCast_nonneg _, fits⟩, Int.toNat_natCast, UInt64.ofNat_toNat]

theorem nullable_of_ne_null {read : Reader α} {v : Json} (h : v ≠ .null) : nullable read v = (read v).map some := by
  cases v with
  | null => exact absurd rfl h
  | _ => rfl

theorem ReadsBack.nullable {read : Reader α} {write : α → Json} (h : ReadsBack read write) {v : Json} {o : Option α}
    (hv : nullable read v = some o) : nullable read (ofNullable write o) = some o := by
  cases o with
  | none => rfl
  | some a =>
    have given : v ≠ .null := by
      rintro rfl
      cases hv
    rw [nullable_of_ne_null given, Option.map_eq_some_iff] at hv
    obtain ⟨b, hb, same⟩ := hv
    cases same
    rw [ofNullable, Option.elim_some, nullable_of_ne_null (h.given hb given), h.again hb, Option.map_some]

theorem mapM_map_of_forall {β : Type} {f : β → Option α} {g : α → β} {as : List α} (h : ∀ a ∈ as, f (g a) = some a) :
    (as.map g).mapM f = some as := by
  induction as with
  | nil => rfl
  | cons a as ih =>
    rw [List.map_cons, List.mapM_cons, h a List.mem_cons_self, ih fun b hb => h b (List.mem_cons_of_mem _ hb)]
    rfl

theorem listOf_ofList {read : Reader α} {write : α → Json} (h : ∀ a, read (write a) = some a) (as : List α) :
    listOf read (ofList write as) = some as :=
  mapM_map_of_forall fun a _ => h a

theorem mapOf_ofMap {read : Reader α} {write : α → Json} (h : ∀ a, read (write a) = some a) (m : KeyMap α) :
    mapOf read (ofMap write m) = some m := by
  have same : members read (m.mapValues write).entries = some m.entries := by
    refine mapM_map_of_forall fun e _ => ?_
    rw [h]
    rfl
  rw [ofMap, Json.ofMap, mapOf, same, Option.map_some, KeyMap.ofList_entries]

@[simp] theorem mapOf_anything_ofMap (m : KeyMap Json) : mapOf anything (Json.ofMap m) = some m := by
  have same : m.mapValues id = m := KeyMap.ext_get? fun k => by
    rw [KeyMap.get?, KeyMap.mapValues, KeyMap.lookup_map_value, Option.map_id_fun, id_eq, KeyMap.get?]
  have back : mapOf anything (ofMap id m) = some m := mapOf_ofMap (fun _ => rfl) m
  rwa [ofMap, same] at back

/-! ### Fields -/

@[simp] theorem text_string (s : String) : text (.string s) = some s := rfl

@[simp] theorem truth_bool (b : Bool) : truth (.bool b) = some b := rfl

@[simp] theorem nullable_text (o : Option String) : nullable text (Json.ofOption o) = some o := by
  cases o <;> rfl

@[simp] theorem nullable_int64 (o : Option Int64) : nullable int64 (ofNullable ofInt64 o) = some o := by
  cases o with
  | none => rfl
  | some n => exact congrArg (Option.map some) (int64_ofInt64 n)

namespace Fields
variable (ms : List (String × Json)) (place : Nat) (name : String) (read : Reader α)

@[simp] theorem required_named : (named ms).required place name read = (ms.lookup name).bind read := rfl

/-- A field that is missing is as good as null. -/
@[simp] theorem optional_named :
    (named ms).optional place name read = nullable read ((ms.lookup name).getD .null) := by
  unfold optional
  dsimp only [find?]
  cases ms.lookup name <;> rfl

/-- The absence of a field with a default stands for what is read as that default. -/
theorem withDefault_named {read : Reader α} {idle : Json} {default : α} (h : read idle = some default) :
    (named ms).withDefault place name default read = read ((ms.lookup name).getD idle) := by
  unfold withDefault
  dsimp only [find?]
  cases ms.lookup name with
  | none => exact h.symm
  | some v => rfl

@[simp] theorem withDefault_text (s : String) :
    (named ms).withDefault place name s text = text ((ms.lookup name).getD (.string s)) :=
  withDefault_named ms place name rfl

@[simp] theorem withDefault_truth (b : Bool) :
    (named ms).withDefault place name b truth = truth ((ms.lookup name).getD (.bool b)) :=
  withDefault_named ms place name rfl

@[simp] theorem withDefault_map :
    (named ms).withDefault place name KeyMap.empty (mapOf anything) =
      mapOf anything ((ms.lookup name).getD (.object [])) :=
  withDefault_named ms place name rfl

theorem withDefault_count (n : UInt64) :
    (named ms).withDefault place name n uint64 = uint64 ((ms.lookup name).getD (.integer n.toNat)) :=
  withDefault_named ms place name (uint64_integer n)

end Fields

/-! ### Records -/

theorem Machine.read_write (m : Machine) : Machine.read m.write = some m := by
  simp [read, write, Fields.of?, KeyMap.lookup_cons]

theorem ServerDefinition.read_write (d : ServerDefinition) : ServerDefinition.read d.write = some d := by
  simp [read, write, Fields.of?, KeyMap.lookup_cons]

theorem ClientEntry.read_write (e : ClientEntry) : ClientEntry.read e.write = some e := by
  simp [read, write, Fields.of?, KeyMap.lookup_cons]

theorem Refusal.read_write (r : Refusal) : Refusal.read r.write = some r := by
  simp [read, write, Fields.of?, KeyMap.lookup_cons]

theorem AttachedToken.read_write (t : AttachedToken) : AttachedToken.read t.write = some t := by
  simp [read, write, Fields.of?, KeyMap.lookup_cons]

theorem TokenPage.read_write (p : TokenPage) : TokenPage.read p.write = some p := by
  have listed := listOf_ofList AttachedToken.read_write
  cases p with
  | whole tokens => rw [read, write, listed]
  | page tokens count =>
    let ms := [("count", Json.integer count.toNat), ("tokens", ofList AttachedToken.write tokens)]
    have tokensFound : ms.lookup "tokens" = some (ofList AttachedToken.write tokens) := rfl
    have countFound : ms.lookup "count" = some (.integer count.toNat) := rfl
    -- An object is no list of tokens, so it is read as a page.
    show readPage (.object ms) = _
    simp only [readPage, Fields.required_named, Fields.withDefault_count]
    rw [tokensFound, Option.bind_some, listed, countFound, Option.getD_some, uint64_integer]
    rfl

/-! ### Answers -/

/-- What an answer of the backend may hold. -/
inductive Payload where
  | anything
  | truth
  | servers
  | machines
  | tokens
  | applications
  | clients

namespace Payload

abbrev Content : Payload → Type
  | .anything => Json
  | .truth => Bool
  | .servers => KeyMap ServerDefinition
  | .machines => List Machine
  | .tokens => TokenPage
  | .applications => KeyMap Json
  | .clients => ClientTypes

def read : (p : Payload) → Reader p.Content
  | .anything => Wire.anything
  | .truth => Wire.truth
  | .servers => mapOf ServerDefinition.read
  | .machines => listOf Machine.read
  | .tokens => TokenPage.read
  | .applications => mapOf Wire.anything
  | .clients => ClientTypes.read

def write : (p : Payload) → p.Content → Json
  | .anything => id
  | .truth => Json.bool
  | .servers => ofMap ServerDefinition.write
  | .machines => ofList Machine.write
  | .tokens => TokenPage.write
  | .applications => Json.ofMap
  | .clients => ClientTypes.write

theorem readsBack (p : Payload) : ReadsBack p.read p.write := by
  cases p with
  | anything => exact readsBack_anything
  | truth => exact .of_read_write truth_bool fun _ => Json.noConfusion
  | servers => exact .of_read_write (mapOf_ofMap ServerDefinition.read_write) fun _ => Json.noConfusion
  | machines => exact .of_read_write (listOf_ofList Machine.read_write) fun _ => Json.noConfusion
  | tokens =>
    refine .of_read_write TokenPage.read_write fun page => ?_
    cases page <;> exact Json.noConfusion
  | applications => exact .of_read_write mapOf_anything_ofMap fun _ => Json.noConfusion
  | clients =>
    exact .of_read_write (mapOf_ofMap (listOf_ofList ClientEntry.read_write)) fun _ => Json.noConfusion

end Payload

section Answers
variable {payload : Reader α} {write : α → Json}

/-- What is written of a field that may be null is read as what was read of it. -/
theorem ReadsBack.optional (h : ReadsBack payload write) {f : Fields} {place : Nat} {name : String} {o : Option α}
    (ho : f.optional place name payload = some o) : Wire.nullable payload (ofNullable write o) = some o := by
  rw [Fields.optional.eq_def] at ho
  split at ho
  · exact h.nullable ho
  · cases ho
    rfl
  · cases ho

theorem Outcome.read_write (h : ReadsBack payload write) {v : Json} {o : Outcome α}
    (hv : Outcome.read payload v = some o) : Outcome.read payload (o.write write) = some o := by
  simp only [read, Option.bind_eq_bind, Option.bind_eq_some_iff] at hv
  obtain ⟨f, -, status, -, value, hvalue, error, herror, made⟩ := hv
  obtain rfl := Option.some.inj made
  have valueBack := h.optional hvalue
  have errorBack := (ReadsBack.of_read_write Refusal.read_write fun _ => Json.noConfusion).optional herror
  simp [read, Outcome.write, Fields.of?, KeyMap.lookup_cons, valueBack, errorBack]

theorem Envelope.read_write (h : ReadsBack payload write) {v : Json} {e : Envelope α}
    (hv : Envelope.read payload v = some e) : Envelope.read payload (e.write write) = some e := by
  simp only [read, Option.bind_eq_bind, Option.bind_eq_some_iff] at hv
  obtain ⟨f, -, result, hresult, version, -, versionNumber, -, detail, hdetail, made⟩ := hv
  obtain rfl := Option.some.inj made
  obtain ⟨w, -, hw⟩ := Option.bind_eq_some_iff.mp hresult
  have resultBack := Outcome.read_write h hw
  have detailBack := readsBack_anything.optional hdetail
  simp [read, Envelope.write, Fields.of?, KeyMap.lookup_cons, resultBack, detailBack]

end Answers

end Wire

/-- An answer that was read and is written down reads as the same answer, whatever spelling of it was read. -/
theorem readEnvelope_write (p : Wire.Payload) {body : Json} {reason reason' : String} {e : Wire.Envelope p.Content}
    (h : Rest.readEnvelope p.read body reason = .ok e) :
    Rest.readEnvelope p.read (e.write p.write) reason' = .ok e := by
  rw [Rest.readEnvelope_eq_ok_iff] at h ⊢
  exact Wire.Envelope.read_write p.readsBack h

/-- An answer whose records are lists of their fields, around a page of tokens that has no count. -/
theorem readEnvelope_write_listed :
    let options := Json.object [("slot", .array [.integer 2, .null])]
    let token := Json.array [.integer 7, .string "OATH1", .string "luks", .null, .string "hosts", .null, .null, options]
    let body := Json.array [.array [.bool true, .object [("tokens", .array [token])], .null], .null, .null, .null]
    ∃ e, Rest.readEnvelope (Wire.Payload.read .tokens) body "" = .ok e ∧
      Rest.readEnvelope (Wire.Payload.read .tokens) (e.write (Wire.Payload.write .tokens)) "" = .ok e := by
  intro options token body
  exact ⟨_, rfl, @readEnvelope_write .tokens body "" "" _ rfl⟩

end MfaConsole
