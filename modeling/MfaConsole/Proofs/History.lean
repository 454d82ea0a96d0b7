import Mathlib.Data.List.Basic

/-! Histories. What has happened is a list that grows at its end, and what is said of it is said of the places where it
    can be cut. -/

namespace MfaConsole

variable {α β : Type}

/-- A history cut at one of its parts is cut at the last, or before it. -/
theorem cut_concat {hs before after : List α} {h x : α} (cut : hs ++ [h] = before ++ x :: after) :
    (before = hs ∧ x = h ∧ after = []) ∨ ∃ earlier, after = earlier ++ [h] ∧ hs = before ++ x :: earlier := by
  rcases List.eq_nil_or_concat after with rfl | ⟨earlier, last, rfl⟩
  · obtain ⟨same, last⟩ := List.append_inj' cut rfl
    exact Or.inl ⟨same.symm, (List.singleton_inj.mp last).symm, rfl⟩
  · have split : hs ++ [h] = (before ++ x :: earlier) ++ [last] := by
      rw [cut]
      simp
    obtain ⟨rfl, same⟩ := List.append_inj' split rfl
    obtain rfl := List.singleton_inj.mp same
    exact Or.inr ⟨earlier, by simp, rfl⟩

/-- What holds of each part and of all that was before it goes on to hold if it holds of the last part. -/
theorem forall_cut_concat {P : List α → α → Prop} {hs : List α} {h : α}
    (earlier : ∀ before x after, hs = before ++ x :: after → P before x) (last : P hs h) :
    ∀ before x after, hs ++ [h] = before ++ x :: after → P before x := by
  intro before x after cut
  rcases cut_concat cut with ⟨rfl, rfl, -⟩ | ⟨between, -, rfl⟩
  · exact last
  · exact earlier before x between rfl

theorem filterMap_concat (f : α → Option β) (hs : List α) (h : α) :
    (hs ++ [h]).filterMap f = hs.filterMap f ++ (f h).toList := by
  rw [List.filterMap_append]
  cases hf : f h <;> simp [hf]

theorem filterMap_concat_of_none {f : α → Option β} {h : α} (hs : List α) (none : f h = none) :
    (hs ++ [h]).filterMap f = hs.filterMap f := by
  rw [filterMap_concat, none, Option.toList_none, List.append_nil]

/-- What went out and what is left make up what came in, if they did so before and the last part keeps the account. -/
theorem account_concat {out into : α → Option β} {hs : List α} {h : α} {left left' : List β}
    (account : hs.filterMap out ++ left = hs.filterMap into)
    (moved : left ++ [h].filterMap into = [h].filterMap out ++ left') :
    (hs ++ [h]).filterMap out ++ left' = (hs ++ [h]).filterMap into :=
  calc (hs ++ [h]).filterMap out ++ left'
    _ = hs.filterMap out ++ ([h].filterMap out ++ left') := by rw [List.filterMap_append, List.append_assoc]
    _ = (hs.filterMap out ++ left) ++ [h].filterMap into := by rw [← moved, List.append_assoc]
    _ = (hs ++ [h]).filterMap into := by rw [account, List.filterMap_append]

/-- Something has begun and not ended, and `since` is what has happened since it began. -/
def Since (began ended : α) (hs since : List α) : Prop :=
  (∃ before, hs = before ++ began :: since) ∧ ended ∉ since

namespace Since
variable {began ended h : α} {hs since : List α}

/-- It has just begun, or it went on. -/
theorem of_concat (lasts : Since began ended (hs ++ [h]) since) : (h = began ∧ since = []) ∨
    ∃ earlier, since = earlier ++ [h] ∧ Since began ended hs earlier ∧ h ≠ ended := by
  obtain ⟨⟨before, cut⟩, goesOn⟩ := lasts
  rcases cut_concat cut with ⟨-, began, rfl⟩ | ⟨earlier, rfl, rfl⟩
  · exact Or.inl ⟨began.symm, rfl⟩
  · refine Or.inr ⟨earlier, rfl, ⟨⟨before, rfl⟩, fun hm => goesOn ?_⟩, ?_⟩
    · simp [hm]
    · rintro rfl
      exact goesOn (by simp)

theorem subset (lasts : Since began ended hs since) : ∀ x ∈ since, x ∈ hs := by
  obtain ⟨⟨before, rfl⟩, -⟩ := lasts
  exact fun x hx => List.mem_append_right before (List.mem_cons_of_mem began hx)

theorem concat (lasts : Since began ended hs since) (stays : h ≠ ended) :
    Since began ended (hs ++ [h]) (since ++ [h]) := by
  obtain ⟨⟨before, rfl⟩, goesOn⟩ := lasts
  refine ⟨⟨before, by simp⟩, fun hm => ?_⟩
  rcases List.mem_append.mp hm with hm | hm
  · exact goesOn hm
  · exact stays (List.mem_singleton.mp hm).symm

end Since
end MfaConsole
