import MfaConsole.Wire.Token
import MfaConsole.Proofs.KeyMap

/-! What an object holds that is made of named members with options beside them. An option comes after the members, so
    one that has a member's name takes its place. -/

namespace MfaConsole
namespace Wire

theorem get?_ofMembers (ms : List (String × Json)) (k : String) : (Json.ofMembers ms).get? k = ms.reverse.lookup k :=
  KeyMap.get?_ofList ms k

theorem get?_withOptions {named : List (String × Json)} (distinct : named.Pairwise fun a b => a.1 ≠ b.1)
    (options : KeyMap String) (k : String) :
    (withOptions named options).get? k = ((options.get? k).map Json.string).or (named.lookup k) := by
  unfold withOptions
  have keys : (options.entries.map fun e => (e.1, Json.string e.2)).Pairwise fun a b => a.1 ≠ b.1 :=
    options.keys_ne.map _ fun _ _ h => h
  rw [get?_ofMembers, List.reverse_append, List.lookup_append, KeyMap.lookup_reverse keys,
    KeyMap.lookup_reverse distinct, KeyMap.lookup_map_value]
  rfl

/-- A body holds the members. -/
def Carries (body : Json) (members : List (String × Json)) : Prop := ∀ m ∈ members, body.get? m.1 = some m.2

/-- Where an option has the name of a member, it also has its value. -/
def Agrees (options : KeyMap String) (members : List (String × Json)) : Prop :=
  ∀ m ∈ members, ∀ v, options.get? m.1 = some v → m.2 = .string v

/-- The members are held exactly if no option of their names says otherwise. -/
theorem carries_withOptions_iff {named members : List (String × Json)} (distinct : named.Pairwise fun a b => a.1 ≠ b.1)
    (some' : ∀ m ∈ members, m ∈ named) (options : KeyMap String) :
    Carries (withOptions named options) members ↔ Agrees options members := by
  refine forall₂_congr fun m hm => ?_
  rw [get?_withOptions distinct, KeyMap.lookup_of_mem distinct (some' m hm)]
  cases options.get? m.1 with
  | none => simp
  | some v => simp [eq_comm]

/-! ### What is sent -/

/-- The members that name the attachment to be made. -/
def Attachment.key (a : Attachment) : List (String × Json) :=
  [("serial", .string a.serial), ("application", .string a.application)]

/-- The members that stand for the fields of an attachment. -/
def Attachment.fields (a : Attachment) : List (String × Json) :=
  [("serial", .string a.serial), ("application", .string a.application)] ++
    memberIfSome "machineid" .string a.machineId ++ memberIfSome "resolver" .string a.resolver

theorem Attachment.fields_distinct (a : Attachment) : a.fields.Pairwise fun m n => m.1 ≠ n.1 := by
  obtain ⟨serial, application, machineId, resolver, options⟩ := a
  cases machineId <;> cases resolver <;> simp [fields, memberIfSome]

theorem Attachment.carries_write_iff (a : Attachment) : Carries a.write a.key ↔ Agrees a.options a.key :=
  carries_withOptions_iff a.fields_distinct
    (fun _ hm => List.mem_append_left _ (List.mem_append_left _ hm)) a.options

/-- The members that name the attachment a row stands for, on a machine. -/
def AttachedToken.keyOn (t : AttachedToken) (machine : String × String) : List (String × Json) :=
  [("serial", .string t.serial), ("application", .string t.application), ("machineid", .string machine.1),
    ("resolver", .string machine.2), ("mtid", ofInt64 t.id)]

end Wire
end MfaConsole
