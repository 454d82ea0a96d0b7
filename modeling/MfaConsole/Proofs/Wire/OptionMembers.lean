import MfaConsole.Proofs.Wire.OptionBody
import MfaConsole.Proofs.Wire.ReadBack

/-! Records whose options stand in one object with their named members. What is written of such a record has the option
    in place of a member of its name, and a reader takes every member of that name for the record's own. So a record
    comes back exactly if no option has the name of a member. -/

namespace MfaConsole

namespace Wire
variable {names : List String} {named : List (String × Json)}

/-! ### The options of an object -/

/-- What is written of options beside named members: apart from the names, its members are the options. -/
theorem filter_ofMembers (inside : ∀ m ∈ named, m.1 ∈ names) (options : KeyMap String) :
    (KeyMap.ofList (named ++ options.entries.map fun e => (e.1, Json.string e.2))).entries.filter
        (fun m => !names.contains m.1) =
      (options.without names).entries.map fun e => (e.1, Json.string e.2) := by
  refine KeyMap.entries_eq_of_lookup ((KeyMap.sorted _).filter _)
    ((options.without names).sorted.map _ fun _ _ h => h) fun k => ?_
  have keys : (options.entries.map fun e => (e.1, Json.string e.2)).Pairwise fun a b => a.1 ≠ b.1 :=
    options.keys_ne.map _ fun _ _ h => h
  have found := KeyMap.get?_ofList (named ++ options.entries.map fun e => (e.1, Json.string e.2)) k
  rw [KeyMap.get?, List.reverse_append, List.lookup_append, KeyMap.lookup_reverse keys,
    KeyMap.lookup_map_value] at found
  rw [KeyMap.lookup_filter_keys (fun k => !names.contains k), KeyMap.lookup_map_value, KeyMap.without,
    KeyMap.lookup_filter_keys (fun k => !names.contains k), found]
  by_cases own : k ∈ names
  · simp [own]
  · have absent : named.reverse.lookup k = none := by
      rw [List.lookup_eq_none_iff]
      intro m hm
      rw [List.mem_reverse] at hm
      exact bne_iff_ne.mpr fun same => own (same ▸ inside m hm)
    simp [own, absent]

theorem otherTexts_ofMembers (inside : ∀ m ∈ named, m.1 ∈ names) (options : KeyMap String) :
    otherTexts names (KeyMap.ofList (named ++ options.entries.map fun e => (e.1, Json.string e.2))).entries =
      some (options.without names) := by
  have read : members text ((options.without names).entries.map fun e => (e.1, Json.string e.2)) =
      some (options.without names).entries := mapM_map_of_forall fun _ _ => rfl
  rw [otherTexts, filter_ofMembers inside, read, Option.map_some, KeyMap.ofList_entries]

theorem not_mem_of_otherTexts {ms : List (String × Json)} {options : KeyMap String}
    (h : otherTexts names ms = some options) : ∀ k ∈ options.keys, k ∉ names := by
  obtain ⟨es, read, rfl⟩ := Option.map_eq_some_iff.mp h
  have outside {kept : List (String × Json)} (hk : ∀ m ∈ kept, m.1 ∉ names) {es : List (String × String)}
      (read : members text kept = some es) : ∀ e ∈ es, e.1 ∉ names := by
    induction kept generalizing es with
    | nil =>
      cases read
      exact fun e he => absurd he List.not_mem_nil
    | cons m kept ih =>
      rw [members, List.mapM_cons] at read
      simp only [Option.bind_eq_bind, Option.bind_eq_some_iff, Option.map_eq_some_iff] at read
      obtain ⟨-, ⟨v, -, rfl⟩, rest, hrest, made⟩ := read
      cases made
      rintro e (_ | ⟨_, he⟩)
      · exact hk m List.mem_cons_self
      · exact ih (fun n hn => hk n (List.mem_cons_of_mem _ hn)) hrest e he
  rw [KeyMap.keys, List.forall_mem_map]
  intro e he
  refine outside (fun m hm => ?_) read e (KeyMap.mem_of_mem_entries_ofList he)
  simpa using (List.mem_filter.mp hm).2

/-- Where no option has the name of a member, what is written holds the members as they are, and the options besides. -/
theorem exists_members (distinct : named.Pairwise fun a b => a.1 ≠ b.1) (inside : ∀ m ∈ named, m.1 ∈ names)
    {options : KeyMap String} (free : ∀ k ∈ options.keys, k ∉ names) :
    ∃ ms, withOptions named options = .object ms ∧ (∀ k ∈ names, ms.lookup k = named.lookup k) ∧
      otherTexts names ms = some options := by
  refine ⟨_, rfl, fun k own => ?_, ?_⟩
  · have absent : options.get? k = none := KeyMap.get?_eq_none_iff.mpr fun hk => free k hk own
    have found := get?_withOptions distinct options k
    rwa [absent, Option.map_none, Option.none_or] at found
  · rw [otherTexts_ofMembers inside, KeyMap.without_eq_self_iff.mpr free]

/-! ### Optional members -/

theorem lookup_memberIfSome {α : Type} (name k : String) (write : α → Json) (o : Option α) :
    (memberIfSome name write o).lookup k = if k = name then o.map write else none := by
  cases o with
  | none => exact (ite_self none).symm
  | some a => exact KeyMap.lookup_cons (name, write a) [] k

/-- A member that is left out where there is no value is read as no value. -/
theorem nullable_getD_map {α : Type} {read : Reader α} {write : α → Json} (h : ∀ a, read (write a) = some a)
    (given : ∀ a, write a ≠ .null) (o : Option α) : nullable read ((o.map write).getD .null) = some o := by
  cases o with
  | none => rfl
  | some a => rw [Option.map_some, Option.getD_some, nullable_of_ne_null (given a), h, Option.map_some]

@[simp] theorem nullable_getD_map_string (o : Option String) :
    nullable text ((o.map Json.string).getD .null) = some o :=
  nullable_getD_map text_string (fun _ => Json.noConfusion) o

@[simp] theorem nullable_getD_map_ofInt64 (o : Option Int64) :
    nullable int64 ((o.map ofInt64).getD .null) = some o :=
  nullable_getD_map int64_ofInt64 (fun _ => Json.noConfusion) o

/-! ### The records -/

/-- A record whose options stand beside members of its own: no option that is read has the name of a member, and where
    no option has one, what is written of the record is read as that record. -/
structure KeepsApart {α : Type} (names : List String) (options : α → KeyMap String) (read : Reader α)
    (write : α → Json) : Prop where
  outside : ∀ {v : Json} {a : α}, read v = some a → ∀ k ∈ (options a).keys, k ∉ names
  again : ∀ {a : α}, (∀ k ∈ (options a).keys, k ∉ names) → read (write a) = some a

namespace KeepsApart
variable {α : Type} {options : α → KeyMap String} {read : Reader α} {write : α → Json}
  (h : KeepsApart names options read write)
include h

theorem read_write_iff (a : α) : read (write a) = some a ↔ ∀ k ∈ (options a).keys, k ∉ names :=
  ⟨h.outside, h.again⟩

theorem read_write_of_read {v : Json} {a : α} (hv : read v = some a) : read (write a) = some a :=
  h.again (h.outside hv)

end KeepsApart

theorem Attachment.keepsApart : KeepsApart memberNames options read write where
  outside {v a} h := by
    cases v with
    | object ms =>
      simp only [read, Option.bind_eq_bind, Option.bind_eq_some_iff] at h
      obtain ⟨serial, -, application, -, machineId, -, resolver, -, options, others, made⟩ := h
      cases made
      exact not_mem_of_otherTexts others
    | _ => cases h
  again {a} free := by
    have inside : ∀ m ∈ a.fields, m.1 ∈ memberNames := by
      cases hm : a.machineId <;> cases hr : a.resolver <;> simp [fields, memberIfSome, memberNames, hm, hr]
    obtain ⟨ms, written, own, others⟩ := exists_members a.fields_distinct inside free
    have write : a.write = .object ms := written
    simp only [memberNames, List.forall_mem_cons, fields, List.lookup_append, KeyMap.lookup_cons, lookup_memberIfSome]
      at own
    obtain ⟨serial, application, machineId, resolver, -⟩ := own
    simp [write, read, serial, application, machineId, resolver, others]

/-- The members that stand for the fields of a change of options. -/
def OptionUpdate.fields (u : OptionUpdate) : List (String × Json) :=
  [("serial", .string u.serial), ("application", .string u.application)] ++
    memberIfSome "machineid" .string u.machineId ++ memberIfSome "resolver" .string u.resolver ++
    memberIfSome "mtid" ofInt64 u.mtid

theorem OptionUpdate.keepsApart : KeepsApart memberNames options read write where
  outside {v u} h := by
    cases v with
    | object ms =>
      simp only [read, Option.bind_eq_bind, Option.bind_eq_some_iff] at h
      obtain ⟨serial, -, application, -, machineId, -, resolver, -, mtid, -, options, others, made⟩ := h
      cases made
      exact not_mem_of_otherTexts others
    | _ => cases h
  again {u} free := by
    have distinct : u.fields.Pairwise fun a b => a.1 ≠ b.1 := by
      cases hm : u.machineId <;> cases hr : u.resolver <;> cases ht : u.mtid <;>
        simp [fields, memberIfSome, hm, hr, ht]
    have inside : ∀ m ∈ u.fields, m.1 ∈ memberNames := by
      cases hm : u.machineId <;> cases hr : u.resolver <;> cases ht : u.mtid <;>
        simp [fields, memberIfSome, memberNames, hm, hr, ht]
    obtain ⟨ms, written, own, others⟩ := exists_members distinct inside free
    have write : u.write = .object ms := written
    simp only [memberNames, List.forall_mem_cons, fields, List.lookup_append, KeyMap.lookup_cons, lookup_memberIfSome]
      at own
    obtain ⟨serial, application, machineId, resolver, mtid, -⟩ := own
    simp [write, read, serial, application, machineId, resolver, mtid, others]

/-- What is sent to attach a token or to change its options comes back from the object written of it exactly if no
    option has the name of one of its members, whatever the option says; and what was read of any object comes back
    always. -/
theorem options_beside_read_back :
    (∀ a : Attachment, Attachment.read a.write = some a ↔
      ∀ k ∈ a.options.keys, k ∉ ["serial", "application", "machineid", "resolver"]) ∧
    (∀ u : OptionUpdate, OptionUpdate.read u.write = some u ↔
      ∀ k ∈ u.options.keys, k ∉ ["serial", "application", "machineid", "resolver", "mtid"]) ∧
    (∀ (v : Json) (a : Attachment), Attachment.read v = some a → Attachment.read a.write = some a) ∧
    ∀ (v : Json) (u : OptionUpdate), OptionUpdate.read v = some u → OptionUpdate.read u.write = some u :=
  ⟨Attachment.keepsApart.read_write_iff, OptionUpdate.keepsApart.read_write_iff,
    fun _ _ => Attachment.keepsApart.read_write_of_read, fun _ _ => OptionUpdate.keepsApart.read_write_of_read⟩

/-- An attachment and a change of options that give no machine, each with one option besides. -/
theorem options_beside_read_back_user :
    let v := Json.object [("application", .string "ssh"), ("serial", .string "S"), ("user", .string "root")]
    let w := Json.object [("application", .string "ssh"), ("mtid", .integer 7), ("serial", .string "S"),
      ("user", .string "root")]
    (∃ a, Attachment.read v = some a ∧ Attachment.read a.write = some a ∧ a.options.keys = ["user"]) ∧
      ∃ u, OptionUpdate.read w = some u ∧ OptionUpdate.read u.write = some u ∧ u.options.keys = ["user"] := by
  intro v w
  obtain ⟨-, -, attachment, update⟩ := options_beside_read_back
  exact ⟨⟨_, rfl, attachment v _ rfl, rfl⟩, ⟨_, rfl, update w _ rfl, rfl⟩⟩

-- An option that repeats the serial is lost, although it says nothing else.
example :
    let options := KeyMap.ofList [("serial", "S")]
    let a : Attachment := { serial := "S", application := "ssh", machineId := none, resolver := none, options }
    (Attachment.read a.write).map (·.options.keys) = some [] := by
  decide

end Wire
end MfaConsole
