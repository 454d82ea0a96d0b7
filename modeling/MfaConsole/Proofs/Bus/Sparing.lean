import MfaConsole.Proofs.Bus.Mailboxes

/-! What happens on an open bus besides one subscriber for reloads: others come, leave and take their events, sessions
    end, and its own mailbox stays as it is. -/

namespace MfaConsole
namespace Bus

/-- The bus is open, and whoever is there is reached. -/
structure Reaches (b : Bus) : Prop where
  knows : b.Knows
  isOpen : b.isOpen = true

theorem reaches_empty : Bus.empty.Reaches where
  knows := ⟨List.nodup_nil, fun _ h => absurd h List.not_mem_nil, fun _ _ _ h => by simp [empty, live?] at h⟩
  isOpen := rfl

theorem Reaches.take {b : Bus} (h : b.Reaches) (i : Nat) : (b.take i).1.Reaches :=
  ⟨h.knows.take i, (isOpen_take b i).1.trans h.isOpen⟩

theorem Reaches.publish {b : Bus} (h : b.Reaches) (e : Event) : (b.publish e).1.Reaches :=
  ⟨h.knows.publish h.isOpen e, h.isOpen⟩

theorem length_publish (b : Bus) (e : Event) : (b.publish e).1.mailboxes.length = b.mailboxes.length :=
  length_foldl_modify (Mailbox.put · e) _ _

/-- The bus reaches as before, and a mailbox for reloads is as it was. -/
structure Spares (i : Nat) (b b' : Bus) : Prop where
  reaches : b.Reaches → b'.Reaches
  grows : b.mailboxes.length ≤ b'.mailboxes.length
  same : b.Reaches → i < b.mailboxes.length → (∀ m, b.live? i = some m → m.topic = .reload) →
    b'.live? i = b.live? i

namespace Spares
variable {i : Nat} {a b c : Bus}

theorem refl (i : Nat) (b : Bus) : Spares i b b := ⟨id, Nat.le_refl _, fun _ _ _ => rfl⟩

theorem trans (h : Spares i a b) (k : Spares i b c) : Spares i a c where
  reaches r := k.reaches (h.reaches r)
  grows := Nat.le_trans h.grows k.grows
  same r lt topic := by
    have before := h.same r lt topic
    exact (k.same (h.reaches r) (Nat.lt_of_lt_of_le lt h.grows) (before ▸ topic)).trans before

/-- An event of another topic is published. -/
theorem publish (i : Nat) (b : Bus) {e : Event} (he : e.topic ≠ .reload) : Spares i b (b.publish e).1 where
  reaches r := r.publish e
  grows := Nat.le_of_eq (length_publish b e).symm
  same r _ topic := by
    rw [live?_publish r.knows r.isOpen]
    cases hm : b.live? i with
    | none => rfl
    | some m => rw [Option.map_some, topic m hm, if_neg he.symm]

theorem publishAll (i : Nat) {es : List Event} (h : ∀ e ∈ es, e.topic ≠ .reload) (b : Bus) :
    Spares i b (es.foldl (fun b e => (b.publish e).1) b) := by
  induction es generalizing b with
  | nil => exact refl i b
  | cons e es ih =>
    exact (publish i b (h e List.mem_cons_self)).trans (ih (fun e' he' => h e' (List.mem_cons_of_mem e he')) _)

theorem subscribe (i : Nat) (b : Bus) (topic : Topic) : Spares i b (b.subscribe topic).1 where
  reaches r := ⟨r.knows.subscribe topic, r.isOpen⟩
  grows := by simp [Bus.subscribe]
  same _ lt _ := by rw [live?_subscribe, if_neg (Nat.ne_of_lt lt)]

theorem unsubscribe (b : Bus) {j : Nat} (h : j ≠ i) : Spares i b (b.unsubscribe j) where
  reaches r := ⟨r.knows.unsubscribe j, r.isOpen⟩
  grows := Nat.le_of_eq (List.length_modify _ _ _).symm
  same _ _ _ := by rw [live?_unsubscribe, if_neg h.symm]

theorem take (b : Bus) {j : Nat} (h : j ≠ i) : Spares i b (b.take j).1 where
  reaches r := r.take j
  grows := Nat.le_of_eq (isOpen_take b j).2.2.symm
  same _ _ _ := by rw [live?_take, if_neg h.symm]

end Spares

/-- A subscriber that leaves is no longer counted. -/
theorem subscriberCount_unsubscribe {b : Bus} (h : b.Reaches) {i : Nat} {m : Mailbox} (live : b.live? i = some m) :
    (b.unsubscribe i).subscriberCount + 1 = b.subscriberCount := by
  have there : i ∈ b.known.filter fun j => (b.live? j).isSome :=
    List.mem_filter.mpr ⟨h.knows.live h.isOpen i m live, by rw [live]; rfl⟩
  have left : ((b.unsubscribe i).known.filter fun j => ((b.unsubscribe i).live? j).isSome) =
      (b.known.filter fun j => (b.live? j).isSome).erase i := by
    rw [(h.knows.nodup.filter _).erase_eq_filter, List.filter_filter]
    refine List.filter_congr fun j _ => ?_
    rw [live?_unsubscribe]
    by_cases same : j = i <;> simp [same]
  rw [subscriberCount, left, List.length_erase_of_mem there]
  exact Nat.sub_add_cancel (List.length_pos_of_mem there)

end Bus
end MfaConsole
