/-! Maps from texts to values, held as the list of their entries in the order of the keys, so that two maps with
    the same entries are the same map. -/

namespace MfaConsole

/-- A map from texts to values; the entries stand in strictly increasing order of their keys. -/
structure KeyMap (α : Type) where
  entries : List (String × α)
  sorted : entries.Pairwise fun a b => a.1 < b.1

namespace KeyMap
variable {α : Type}

/-- The map without entries. -/
def empty : KeyMap α := ⟨[], .nil⟩

instance : Inhabited (KeyMap α) := ⟨empty⟩

instance [BEq α] : BEq (KeyMap α) := ⟨fun a b => a.entries == b.entries⟩

/-- The entries with `key` set to `value`; an entry of that key is replaced. -/
def insertEntry (key : String) (value : α) : List (String × α) → List (String × α)
  | [] => [(key, value)]
  | e :: es =>
    if key < e.1 then (key, value) :: e :: es
    else if key = e.1 then (key, value) :: es
    else e :: insertEntry key value es

theorem mem_insertEntry {key : String} {value : α} {x : String × α} :
    ∀ {es : List (String × α)}, x ∈ insertEntry key value es → x = (key, value) ∨ x ∈ es
  | [], h => by simpa [insertEntry] using h
  | e :: es, h => by
    unfold insertEntry at h
    split at h
    · simpa using h
    · split at h
      · rcases List.mem_cons.mp h with h | h
        · exact Or.inl h
        · exact Or.inr (List.mem_cons_of_mem _ h)
      · rcases List.mem_cons.mp h with h | h
        · exact Or.inr (h ▸ List.mem_cons_self)
        · exact (mem_insertEntry h).imp_right (List.mem_cons_of_mem _)

theorem sorted_insertEntry (key : String) (value : α) :
    ∀ {es : List (String × α)}, (es.Pairwise fun a b => a.1 < b.1) →
      (insertEntry key value es).Pairwise fun a b => a.1 < b.1
  | [], _ => by simp [insertEntry]
  | e :: es, h => by
    have he : ∀ x ∈ es, e.1 < x.1 := fun x hx => List.rel_of_pairwise_cons h hx
    have ht := h.of_cons
    unfold insertEntry
    split
    next hlt =>
      refine List.pairwise_cons.mpr ⟨fun x hx => ?_, h⟩
      rcases List.mem_cons.mp hx with rfl | hx
      · exact hlt
      · exact String.lt_trans hlt (he x hx)
    next hnlt =>
      split
      next heq =>
        subst heq
        exact List.pairwise_cons.mpr ⟨fun x hx => he x hx, ht⟩
      next hne =>
        refine List.pairwise_cons.mpr ⟨fun x hx => ?_, sorted_insertEntry key value ht⟩
        rcases mem_insertEntry hx with rfl | hx
        · have hle : e.1 ≤ key := String.not_lt.mp hnlt
          exact Std.lt_of_le_of_ne hle (Ne.symm hne)
        · exact he x hx

/-- The map with `key` set to `value`. -/
def insert (m : KeyMap α) (key : String) (value : α) : KeyMap α :=
  ⟨insertEntry key value m.entries, sorted_insertEntry key value m.sorted⟩

def get? (m : KeyMap α) (key : String) : Option α :=
  m.entries.lookup key

/-- The map of the entries; of two entries of one key the later one counts. -/
def ofList (es : List (String × α)) : KeyMap α :=
  es.foldl (fun m e => m.insert e.1 e.2) empty

def keys (m : KeyMap α) : List String :=
  m.entries.map (·.1)

def mapValues {β : Type} (f : α → β) (m : KeyMap α) : KeyMap β :=
  ⟨m.entries.map fun e => (e.1, f e.2), m.sorted.map _ fun _ _ h => h⟩

end KeyMap
end MfaConsole
