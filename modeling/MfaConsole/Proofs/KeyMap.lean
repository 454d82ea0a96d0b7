import MfaConsole.KeyMap

/-! Maps by what they hold for each key. A map is determined by its look-ups, and each way of making one has an
    equation for them. -/

namespace MfaConsole
namespace KeyMap
variable {α : Type}

@[simp] theorem get?_empty (key : String) : (empty : KeyMap α).get? key = none := rfl

theorem lookup_cons (e : String × α) (es : List (String × α)) (k : String) :
    (e :: es).lookup k = if k = e.1 then some e.2 else es.lookup k := by
  obtain ⟨key, value⟩ := e
  by_cases h : k = key
  · simp [h]
  · simp [List.lookup_cons, beq_false_of_ne h, h]

theorem lookup_insertEntry (key k : String) (value : α) :
    ∀ es : List (String × α), (insertEntry key value es).lookup k = if k = key then some value else es.lookup k
  | [] => lookup_cons (key, value) [] k
  | e :: es => by
    have ih := lookup_insertEntry key k value es
    unfold insertEntry
    split
    · rw [lookup_cons]
    · split
      · next heq =>
        rw [lookup_cons, lookup_cons]
        by_cases h : k = key
        · rw [if_pos h, if_pos h]
        · rw [if_neg h, if_neg h, if_neg (heq ▸ h)]
      · next hne =>
        rw [lookup_cons, lookup_cons, ih]
        by_cases h : k = e.1
        · rw [if_pos h, if_pos h, if_neg (h ▸ Ne.symm hne)]
        · rw [if_neg h, if_neg h]

theorem get?_insert (m : KeyMap α) (key : String) (value : α) (k : String) :
    (m.insert key value).get? k = if k = key then some value else m.get? k :=
  lookup_insertEntry key k value m.entries

/-! ### Maps as their look-ups -/

theorem lookup_filter_keys (p : String → Bool) (k : String) : ∀ es : List (String × α),
    (es.filter fun e => p e.1).lookup k = if p k then es.lookup k else none
  | [] => (ite_self none).symm
  | e :: es => by
    have ih := lookup_filter_keys p k es
    rw [List.filter_cons, lookup_cons]
    by_cases hk : k = e.1
    · subst hk
      split
      · rw [lookup_cons, if_pos rfl, if_pos rfl]
      · next hp => rw [ih, if_neg hp]
    · rw [if_neg hk, ← ih]
      split
      · rw [lookup_cons, if_neg hk]
      · rfl

theorem mem_of_lookup {k : String} {v : α} : ∀ {es : List (String × α)}, es.lookup k = some v → (k, v) ∈ es
  | e :: es, h => by
    rw [lookup_cons] at h
    split at h
    · next heq =>
      obtain rfl := Option.some.inj h
      exact heq ▸ List.mem_cons_self
    · exact List.mem_cons_of_mem _ (mem_of_lookup h)

theorem lookup_eq_none_of_lt {k : String} {es : List (String × α)} (h : ∀ e ∈ es, k < e.1) : es.lookup k = none := by
  rw [List.lookup_eq_none_iff]
  intro e he
  exact bne_iff_ne.mpr fun hk => String.lt_irrefl k (hk.symm ▸ h e he)

theorem head_le_of_lookup {e : String × α} {es : List (String × α)} (hs : (e :: es).Pairwise fun a b => a.1 < b.1)
    {k : String} {v : α} (h : (e :: es).lookup k = some v) : e.1 ≤ k := by
  rcases List.mem_cons.mp (mem_of_lookup h) with rfl | hm
  · exact String.le_refl _
  · exact Std.le_of_lt (List.rel_of_pairwise_cons hs hm)

theorem entries_eq_of_lookup : ∀ {as bs : List (String × α)}, (as.Pairwise fun a b => a.1 < b.1) →
    (bs.Pairwise fun a b => a.1 < b.1) → (∀ k, as.lookup k = bs.lookup k) → as = bs
  | [], [], _, _, _ => rfl
  | [], b :: bs, _, _, h => by
    have := h b.1
    rw [lookup_cons, if_pos rfl] at this
    cases this
  | a :: as, [], _, _, h => by
    have := h a.1
    rw [lookup_cons, if_pos rfl] at this
    cases this
  | a :: as, b :: bs, ha, hb, h => by
    have foundA : (a :: as).lookup a.1 = some a.2 := by rw [lookup_cons, if_pos rfl]
    have foundB : (b :: bs).lookup b.1 = some b.2 := by rw [lookup_cons, if_pos rfl]
    have hkey : a.1 = b.1 :=
      Std.le_antisymm (head_le_of_lookup ha ((h b.1).trans foundB)) (head_le_of_lookup hb ((h a.1).symm.trans foundA))
    have hvalue : a.2 = b.2 := by
      have := foundA.symm.trans (h a.1)
      rw [hkey, foundB] at this
      exact Option.some.inj this
    obtain rfl : a = b := Prod.ext hkey hvalue
    congr 1
    refine entries_eq_of_lookup ha.of_cons hb.of_cons fun k => ?_
    by_cases hk : k = a.1
    · rw [hk, lookup_eq_none_of_lt fun e he => List.rel_of_pairwise_cons ha he,
        lookup_eq_none_of_lt fun e he => List.rel_of_pairwise_cons hb he]
    · have := h k
      rwa [lookup_cons, lookup_cons, if_neg hk, if_neg hk] at this

theorem ext_get? {m n : KeyMap α} (h : ∀ k, m.get? k = n.get? k) : m = n := by
  obtain ⟨es, hs⟩ := m
  obtain ⟨fs, ht⟩ := n
  obtain rfl := entries_eq_of_lookup hs ht h
  rfl

theorem get?_eq_none_iff {m : KeyMap α} {k : String} : m.get? k = none ↔ k ∉ m.keys := by
  rw [get?, List.lookup_eq_none_iff, keys, List.mem_map, not_exists]
  refine forall_congr' fun e => ?_
  rw [bne_iff_ne, not_and, eq_comm]

/-! ### Maps made of entries -/

/-- Of several entries of a key the last one counts, and before all of them what was there. -/
theorem get?_foldl_insert (k : String) : ∀ (es : List (String × α)) (m : KeyMap α),
    (es.foldl (fun m e => m.insert e.1 e.2) m).get? k = (es.reverse.lookup k).or (m.get? k)
  | [], m => rfl
  | e :: es, m => by
    rw [List.foldl_cons, get?_foldl_insert k es, get?_insert, List.reverse_cons, List.lookup_append, lookup_cons,
      Option.or_assoc]
    split <;> rfl

theorem get?_ofList (es : List (String × α)) (k : String) : (ofList es).get? k = es.reverse.lookup k := by
  rw [ofList, get?_foldl_insert, get?_empty, Option.or_none]

/-- Each entry of a map made of entries is one of them. -/
theorem mem_of_mem_entries_ofList {es : List (String × α)} {e : String × α} (h : e ∈ (ofList es).entries) : e ∈ es := by
  have insert {m : KeyMap α} {ds : List (String × α)}
      (hm : e ∈ (ds.foldl (fun m e => m.insert e.1 e.2) m).entries) : e ∈ m.entries ∨ e ∈ ds := by
    induction ds generalizing m with
    | nil => exact Or.inl hm
    | cons d ds ih =>
      rcases ih hm with h | h
      · rcases mem_insertEntry h with rfl | h
        · exact Or.inr List.mem_cons_self
        · exact Or.inl h
      · exact Or.inr (List.mem_cons_of_mem _ h)
  rcases insert h with h | h
  · cases h
  · exact h

theorem lookup_of_mem {k : String} {v : α} {es : List (String × α)} (hs : es.Pairwise fun a b => a.1 ≠ b.1)
    (h : (k, v) ∈ es) : es.lookup k = some v := by
  induction es with
  | nil => cases h
  | cons e es ih =>
    rw [lookup_cons]
    rcases List.mem_cons.mp h with rfl | h
    · rw [if_pos rfl]
    · have ne : e.1 ≠ k := List.rel_of_pairwise_cons hs h
      rw [if_neg ne.symm]
      exact ih hs.of_cons h

theorem keys_ne (m : KeyMap α) : m.entries.Pairwise fun a b => a.1 ≠ b.1 :=
  m.sorted.imp fun {a b} (h : a.1 < b.1) (same : a.1 = b.1) => String.lt_irrefl b.1 (same ▸ h)

/-- Where no two entries have the same key, it does not matter from which end they are looked up. -/
theorem lookup_reverse {es : List (String × α)} (hs : es.Pairwise fun a b => a.1 ≠ b.1) (k : String) :
    es.reverse.lookup k = es.lookup k := by
  cases hr : es.reverse.lookup k with
  | some v => exact (lookup_of_mem hs (List.mem_reverse.mp (mem_of_lookup hr))).symm
  | none =>
    rw [eq_comm, List.lookup_eq_none_iff]
    intro e he
    exact List.lookup_eq_none_iff.mp hr e (List.mem_reverse.mpr he)

/-- A map is made of its entries. -/
theorem ofList_entries (m : KeyMap α) : ofList m.entries = m := by
  refine ext_get? fun k => ?_
  rw [get?_ofList, lookup_reverse m.keys_ne]
  rfl

theorem lookup_map_value {β : Type} (f : α → β) (k : String) (es : List (String × α)) :
    (es.map fun e => (e.1, f e.2)).lookup k = (es.lookup k).map f := by
  induction es with
  | nil => rfl
  | cons e es ih =>
    rw [List.map_cons, lookup_cons, lookup_cons, ih]
    split <;> rfl

/-- The entries whose value satisfies `p`. -/
def filterValues (p : α → Bool) (m : KeyMap α) : KeyMap α :=
  ⟨m.entries.filter fun e => p e.2, m.sorted.filter _⟩

theorem lookup_filter_values (p : α → Bool) (k : String) : ∀ {es : List (String × α)},
    (es.Pairwise fun a b => a.1 < b.1) → (es.filter fun e => p e.2).lookup k = (es.lookup k).filter p
  | [], _ => rfl
  | e :: es, hs => by
    have ih := lookup_filter_values p k hs.of_cons
    rw [List.filter_cons, lookup_cons]
    by_cases hk : k = e.1
    · rw [if_pos hk]
      split
      · next hp => rw [lookup_cons, if_pos hk, Option.filter_some, if_pos hp]
      · next hp =>
        -- No entry further on has this key.
        rw [ih, lookup_eq_none_of_lt fun x hx => hk ▸ List.rel_of_pairwise_cons hs hx, Option.filter_some, if_neg hp]
        rfl
    · rw [if_neg hk, ← ih]
      split
      · rw [lookup_cons, if_neg hk]
      · rfl

theorem get?_filterValues (p : α → Bool) (m : KeyMap α) (k : String) :
    (m.filterValues p).get? k = (m.get? k).filter p :=
  lookup_filter_values p k m.sorted

/-- The map without the entries of some keys. -/
def without (names : List String) (m : KeyMap α) : KeyMap α :=
  ⟨m.entries.filter fun e => !names.contains e.1, m.sorted.filter _⟩

theorem without_eq_self_iff {names : List String} {m : KeyMap α} : m.without names = m ↔ ∀ k ∈ m.keys, k ∉ names := by
  have entries : m.without names = m ↔ (m.without names).entries = m.entries :=
    ⟨congrArg KeyMap.entries, fun h => ext_get? fun k => congrArg (List.lookup k) h⟩
  rw [entries, without, List.filter_eq_self, keys, List.forall_mem_map]
  simp

end KeyMap
end MfaConsole
