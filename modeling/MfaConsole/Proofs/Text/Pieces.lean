import MfaConsole.Proofs.Text.Escapes

/-! Cutting undoes joining: pieces that do not hold the separator come back from the text that joins them, and so do
    the pairs of a query. -/

namespace MfaConsole
namespace Text
variable {sep : Char}

/-! ### All pieces -/

@[simp] theorem pieces_nil (sep : Char) : pieces sep [] = [[]] := rfl

theorem pieces_cons_sep (sep : Char) (cs : List Char) : pieces sep (sep :: cs) = [] :: pieces sep cs := by
  rw [pieces, if_pos rfl]

theorem pieces_cons_ne {c : Char} {cs p : List Char} {ps : List (List Char)} (h : c ≠ sep)
    (hp : pieces sep cs = p :: ps) : pieces sep (c :: cs) = (c :: p) :: ps := by
  rw [pieces, if_neg h, hp]

/-- The pieces before and after a separator are those of the two texts around it. -/
theorem pieces_append_sep (sep : Char) (ds : List Char) :
    ∀ cs : List Char, pieces sep (cs ++ sep :: ds) = pieces sep cs ++ pieces sep ds
  | [] => pieces_cons_sep sep ds
  | c :: cs => by
    have ih := pieces_append_sep sep ds cs
    by_cases h : c = sep
    · subst h
      rw [List.cons_append, pieces_cons_sep, pieces_cons_sep, ih, List.cons_append]
    · obtain ⟨p, ps, hp⟩ := List.exists_cons_of_ne_nil (pieces_ne_nil sep cs)
      rw [hp, List.cons_append] at ih
      rw [List.cons_append, pieces_cons_ne h ih, pieces_cons_ne h hp, List.cons_append]

theorem pieces_of_not_mem : ∀ {cs : List Char}, sep ∉ cs → pieces sep cs = [cs]
  | [], _ => rfl
  | c :: cs, h => by
    have hc : c ≠ sep := fun hc => h (hc ▸ List.mem_cons_self)
    exact pieces_cons_ne hc (pieces_of_not_mem fun hm => h (List.mem_cons_of_mem _ hm))

theorem pieces_cons_of_not_mem {p cs : List Char} (h : sep ∉ p) : pieces sep (p ++ sep :: cs) = p :: pieces sep cs := by
  rw [pieces_append_sep, pieces_of_not_mem h, List.singleton_append]

theorem mem_of_mem_pieces {cs p : List Char} (h : p ∈ pieces sep cs) : ∀ c ∈ p, c ≠ sep ∧ c ∈ cs := by
  induction cs generalizing p with
  | nil =>
    obtain rfl := List.mem_singleton.mp h
    exact fun c hc => absurd hc List.not_mem_nil
  | cons d cs ih =>
    intro c hc
    by_cases hd : d = sep
    · rw [hd, pieces_cons_sep] at h
      rcases List.mem_cons.mp h with rfl | h
      · cases hc
      · exact ⟨(ih h c hc).1, List.mem_cons_of_mem _ (ih h c hc).2⟩
    · obtain ⟨q, qs, hq⟩ := List.exists_cons_of_ne_nil (pieces_ne_nil sep cs)
      rw [pieces_cons_ne hd hq] at h
      rcases List.mem_cons.mp h with rfl | h
      · rcases List.mem_cons.mp hc with rfl | hc
        · exact ⟨hd, List.mem_cons_self⟩
        · have := ih (hq ▸ List.mem_cons_self) c hc
          exact ⟨this.1, List.mem_cons_of_mem _ this.2⟩
      · have := ih (hq ▸ List.mem_cons_of_mem _ h) c hc
        exact ⟨this.1, List.mem_cons_of_mem _ this.2⟩

theorem not_mem_of_mem_pieces {cs p : List Char} (h : p ∈ pieces sep cs) : sep ∉ p :=
  fun hm => (mem_of_mem_pieces h sep hm).1 rfl

/-- Each piece comes back from a text in which each stands after a separator, with an empty one before them. -/
theorem pieces_flatMap : ∀ {ps : List (List Char)}, (∀ p ∈ ps, sep ∉ p) →
    pieces sep (ps.flatMap fun p => sep :: p) = [] :: ps
  | [], _ => rfl
  | p :: ps, h => by
    have ih := pieces_flatMap fun q hq => h q (List.mem_cons_of_mem _ hq)
    rw [List.flatMap_cons, List.cons_append, pieces_cons_sep]
    cases ps with
    | nil => rw [List.flatMap_nil, List.append_nil, pieces_of_not_mem (h p List.mem_cons_self)]
    | cons q qs =>
      rw [List.flatMap_cons, List.cons_append, pieces_cons_sep] at ih
      rw [List.flatMap_cons, List.cons_append, pieces_cons_of_not_mem (h p List.mem_cons_self), (List.cons.inj ih).2]

theorem joinWith_eq_intercalate (sep : List Char) : ∀ ps : List (List Char), joinWith sep ps = sep.intercalate ps
  | [] => rfl
  | [p] => by simp [joinWith]
  | p :: q :: ps => by rw [joinWith, joinWith_eq_intercalate sep (q :: ps), List.intercalate_cons_cons]

/-- The pieces come back from the text that joins them. -/
theorem pieces_joinWith : ∀ {ps : List (List Char)}, ps ≠ [] → (∀ p ∈ ps, sep ∉ p) → pieces sep (joinWith [sep] ps) = ps
  | [], h, _ => absurd rfl h
  | [p], _, h => pieces_of_not_mem (h p List.mem_cons_self)
  | p :: q :: ps, _, h => by
    rw [joinWith, List.append_assoc, List.singleton_append, pieces_cons_of_not_mem (h p List.mem_cons_self),
      pieces_joinWith (List.cons_ne_nil q ps) fun r hr => h r (List.mem_cons_of_mem _ hr)]

/-- Pieces that are not empty come back also where there are none, though an empty text has an empty piece. -/
theorem filter_pieces_joinWith {ps : List (List Char)} (h : ∀ p ∈ ps, p ≠ [] ∧ sep ∉ p) :
    (pieces sep (joinWith [sep] ps)).filter (· ≠ []) = ps := by
  by_cases hps : ps = []
  · rw [hps]
    rfl
  · rw [pieces_joinWith hps fun p hp => (h p hp).2, List.filter_eq_self]
    exact fun p hp => decide_eq_true (h p hp).1

/-- Where more than the separator stands between the texts, the rest of it begins all pieces but the first. -/
theorem pieces_joinWith_padded {pad : List Char} (hpad : sep ∉ pad) (p : List Char) : ∀ {ps : List (List Char)},
    (∀ q ∈ p :: ps, sep ∉ q) → pieces sep (joinWith (sep :: pad) (p :: ps)) = p :: ps.map (pad ++ ·)
  | [], h => pieces_of_not_mem (h p List.mem_cons_self)
  | q :: ps, h => by
    have hq : sep ∉ pad ++ q := fun hm => by
      rcases List.mem_append.mp hm with hm | hm
      · exact hpad hm
      · exact h q (List.mem_cons_of_mem _ List.mem_cons_self) hm
    have rest : ∀ r ∈ (pad ++ q) :: ps, sep ∉ r := fun r hr => by
      rcases List.mem_cons.mp hr with rfl | hr
      · exact hq
      · exact h r (List.mem_cons_of_mem _ (List.mem_cons_of_mem _ hr))
    have moved : pad ++ joinWith (sep :: pad) (q :: ps) = joinWith (sep :: pad) ((pad ++ q) :: ps) := by
      cases ps with
      | nil => rfl
      | cons r rs => simp [joinWith]
    rw [joinWith, List.append_assoc, List.cons_append, pieces_cons_of_not_mem (h p List.mem_cons_self), moved,
      pieces_joinWith_padded hpad (pad ++ q) rest]
    rfl

/-! ### The first cut -/

theorem cutFirst?_of_not_mem : ∀ {cs : List Char}, sep ∉ cs → cutFirst? sep cs = none
  | [], _ => rfl
  | c :: cs, h => by
    have hc : c ≠ sep := fun hc => h (hc ▸ List.mem_cons_self)
    rw [cutFirst?, if_neg hc, cutFirst?_of_not_mem fun hm => h (List.mem_cons_of_mem _ hm)]
    rfl

theorem cutFirst?_append (ds : List Char) :
    ∀ {cs : List Char}, sep ∉ cs → cutFirst? sep (cs ++ sep :: ds) = some (cs, ds)
  | [], _ => by rw [List.nil_append, cutFirst?, if_pos rfl]
  | c :: cs, h => by
    have hc : c ≠ sep := fun hc => h (hc ▸ List.mem_cons_self)
    rw [List.cons_append, cutFirst?, if_neg hc, cutFirst?_append ds fun hm => h (List.mem_cons_of_mem _ hm)]
    rfl

theorem cutOrAll_of_not_mem {cs : List Char} (h : sep ∉ cs) : cutOrAll sep cs = (cs, []) := by
  rw [cutOrAll, cutFirst?_of_not_mem h]
  rfl

theorem cutOrAll_append {cs : List Char} (h : sep ∉ cs) (ds : List Char) :
    cutOrAll sep (cs ++ sep :: ds) = (cs, ds) := by
  rw [cutOrAll, cutFirst?_append ds h]
  rfl

theorem not_mem_of_cutFirst? : ∀ {cs : List Char} {r : List Char × List Char}, cutFirst? sep cs = some r → sep ∉ r.1
  | c :: cs, r, h => by
    rw [cutFirst?] at h
    split at h
    · cases h
      exact List.not_mem_nil
    · next hc =>
      obtain ⟨rest, hr, rfl⟩ := Option.map_eq_some_iff.mp h
      rw [List.mem_cons, not_or]
      exact ⟨Ne.symm hc, not_mem_of_cutFirst? hr⟩

theorem not_mem_of_cutFirst?_none : ∀ {cs : List Char}, cutFirst? sep cs = none → sep ∉ cs
  | [], _ => List.not_mem_nil
  | c :: cs, h => by
    rw [cutFirst?] at h
    split at h
    · cases h
    · next hc =>
      rw [List.mem_cons, not_or]
      exact ⟨Ne.symm hc, not_mem_of_cutFirst?_none (Option.map_eq_none_iff.mp h)⟩

theorem eq_append_of_cutFirst? : ∀ {cs : List Char} {r : List Char × List Char}, cutFirst? sep cs = some r →
    cs = r.1 ++ sep :: r.2
  | c :: cs, r, h => by
    rw [cutFirst?] at h
    split at h
    · next hc =>
      cases h
      exact congrArg (· :: cs) hc
    · obtain ⟨rest, hr, rfl⟩ := Option.map_eq_some_iff.mp h
      exact congrArg (c :: ·) (eq_append_of_cutFirst? hr)

/-- The text before the first separator does not hold it. -/
theorem not_mem_cutOrAll_fst (cs : List Char) : sep ∉ (cutOrAll sep cs).1 := by
  rw [cutOrAll]
  cases h : cutFirst? sep cs with
  | none => exact not_mem_of_cutFirst?_none h
  | some r => exact not_mem_of_cutFirst? h

theorem eq_of_cutOrAll {cs front rest : List Char} (h : cutOrAll sep cs = (front, rest)) :
    cs = front ∧ rest = [] ∨ cs = front ++ sep :: rest := by
  rw [cutOrAll] at h
  rcases hc : cutFirst? sep cs with _ | r <;> rw [hc] at h <;> cases h
  · exact Or.inl ⟨rfl, rfl⟩
  · exact Or.inr (eq_append_of_cutFirst? hc)

theorem mem_of_mem_cutOrAll_fst {c : Char} {cs : List Char} (h : c ∈ (cutOrAll sep cs).1) : c ∈ cs := by
  rcases hc : cutOrAll sep cs with ⟨front, rest⟩
  rw [hc] at h
  rcases eq_of_cutOrAll hc with ⟨rfl, -⟩ | rfl
  · exact h
  · exact List.mem_append_left _ h

/-! ### The last cut -/

theorem not_mem_of_cutLast?_none : ∀ {cs : List Char}, cutLast? sep cs = none → sep ∉ cs
  | [], _ => List.not_mem_nil
  | c :: cs, h => by
    rw [cutLast?] at h
    split at h
    · cases h
    · next hn =>
      split at h
      · cases h
      · next hc =>
        rw [List.mem_cons, not_or]
        exact ⟨Ne.symm hc, not_mem_of_cutLast?_none hn⟩

/-- The last cut is at the last separator. -/
theorem eq_append_of_cutLast? : ∀ {cs : List Char} {r : List Char × List Char}, cutLast? sep cs = some r →
    cs = r.1 ++ sep :: r.2 ∧ sep ∉ r.2
  | c :: cs, r, h => by
    rw [cutLast?] at h
    split at h
    · next rest hr =>
      cases h
      obtain ⟨same, last⟩ := eq_append_of_cutLast? hr
      exact ⟨congrArg (c :: ·) same, last⟩
    · next hn =>
      split at h
      · next hc =>
        cases h
        exact ⟨congrArg (· :: cs) hc, not_mem_of_cutLast?_none hn⟩
      · cases h

/-! ### What follows a beginning -/

theorem after?_eq_some_iff : ∀ {start cs rest : List Char}, after? start cs = some rest ↔ cs = start ++ rest
  | [], cs, rest => by
    cases cs <;> simp [after?, eq_comm]
  | s :: ss, [], rest => by simp [after?]
  | s :: ss, c :: cs, rest => by
    rw [after?]
    split
    · next h => rw [after?_eq_some_iff, h, List.cons_append, List.cons.injEq, and_iff_right rfl]
    · next h => simp [Ne.symm h]

/-! ### Queries -/

namespace Form

theorem not_mem_encodeChars {c : Char} (hc : c.isAlphanum = false) (hs : c ∉ ['*', '-', '.', '_', '+', '%'])
    (cs : List Char) : c ∉ encodeChars cs := fun h => by
  rcases mem_encodeChars h with h | h
  · exact Bool.noConfusion (hc.symm.trans h)
  · exact hs h

theorem readPair_pairChars (p : String × String) : readPair (pairChars p) = p := by
  have h : '=' ∉ encodeChars p.1.toList := not_mem_encodeChars (by decide) (by decide) _
  simp only [readPair, pairChars, cutOrAll_append h, decodeChars_encodeChars, String.ofList_toList]

theorem not_mem_pairChars (p : String × String) : '&' ∉ pairChars p := by
  have h (cs : List Char) : '&' ∉ encodeChars cs := not_mem_encodeChars (by decide) (by decide) cs
  simp [pairChars, h]

/-- The pairs of a query come back as they were written. -/
theorem readChars_queryChars (ps : List (String × String)) : readChars (queryChars ps) = ps := by
  have kept : (pieces '&' (queryChars ps)).filter (· ≠ []) = ps.map pairChars :=
    filter_pieces_joinWith (List.forall_mem_map.mpr fun p _ => ⟨by simp [pairChars], not_mem_pairChars p⟩)
  have read : readPair ∘ pairChars = id := funext readPair_pairChars
  rw [readChars, kept, List.map_map, read, List.map_id]

end Form

/-- A URL comes apart into what stood before its query, and the query. -/
theorem cutOrAll_withQuery {path : List Char} (h : '?' ∉ path) (pairs : List (String × String)) :
    cutOrAll '?' (Form.withQuery (String.ofList path) pairs).toList = (path, Form.queryChars pairs) := by
  rw [Form.withQuery]
  split
  · next he =>
    subst he
    rw [String.toList_ofList, cutOrAll_of_not_mem h]
    rfl
  · simp only [String.toList_append, String.toList_ofList, Form.query, List.append_assoc]
    exact cutOrAll_append h _

end Text
end MfaConsole
