import MfaConsole.Text.Utf8

/-! Reading UTF-8 gives back what was written. Whatever octets are read, there is at least one character unless
    there was no octet. -/

namespace MfaConsole
namespace Text
namespace Utf8

@[simp] theorem encode_nil : encode [] = [] := rfl

theorem encode_cons (c : Char) (cs : List Char) : encode (c :: cs) = encodeChar c ++ encode cs := rfl

theorem encode_append (cs ds : List Char) : encode (cs ++ ds) = encode cs ++ encode ds :=
  List.flatMap_append

theorem decodeFrom_cons (place : Place) (b : UInt8) (bs : List UInt8) :
    decodeFrom place (b :: bs) = (step place b.toNat).1 ++ decodeFrom (step place b.toNat).2 bs := by
  cases place <;> rfl

/-! ### One character -/

theorem scalar_range (c : Char) : c.toNat < 0xD800 ∨ 0xDFFF < c.toNat ∧ c.toNat < 0x110000 :=
  c.valid

theorem toNat_ofNat {n : Nat} (h : n < 256) : (UInt8.ofNat n).toNat = n := by
  simp [Nat.mod_eq_of_lt h]

theorem step_last {bits least most b : Nat} (hl : least ≤ b) (hm : b ≤ most) :
    step (.inside bits 1 least most) b = ([Char.ofNat (bits * 64 + (b - 0x80))], .between) := by
  simp [step, hl, hm]

theorem step_more {bits owed least most b : Nat} (ho : 1 < owed) (hl : least ≤ b) (hm : b ≤ most) :
    step (.inside bits owed least most) b = ([], .inside (bits * 64 + (b - 0x80)) (owed - 1) 0x80 0xBF) := by
  have : ¬owed ≤ 1 := by omega
  simp [step, hl, hm, this]

theorem first_two {b : Nat} (hl : 0xC2 ≤ b) (hm : b < 0xE0) : first b = ([], .inside (b - 0xC0) 1 0x80 0xBF) := by
  have h₁ : ¬b < 0x80 := by omega
  have h₂ : ¬b < 0xC2 := by omega
  simp [first, h₁, h₂, hm]

theorem first_three {b : Nat} (hl : 0xE0 ≤ b) (hm : b < 0xF0) :
    first b = ([], .inside (b - 0xE0) 2 (if b = 0xE0 then 0xA0 else 0x80) (if b = 0xED then 0x9F else 0xBF)) := by
  have h₁ : ¬b < 0x80 := by omega
  have h₂ : ¬b < 0xC2 := by omega
  have h₃ : ¬b < 0xE0 := by omega
  simp [first, h₁, h₂, h₃, hm]

theorem first_four {b : Nat} (hl : 0xF0 ≤ b) (hm : b < 0xF5) :
    first b = ([], .inside (b - 0xF0) 3 (if b = 0xF0 then 0x90 else 0x80) (if b = 0xF4 then 0x8F else 0xBF)) := by
  have h₁ : ¬b < 0x80 := by omega
  have h₂ : ¬b < 0xC2 := by omega
  have h₃ : ¬b < 0xE0 := by omega
  have h₄ : ¬b < 0xF0 := by omega
  simp [first, h₁, h₂, h₃, h₄, hm]

/-- The octets of a character are read as that character, whatever follows. -/
theorem decodeFrom_encodeChar (c : Char) (bs : List UInt8) :
    decodeFrom .between (encodeChar c ++ bs) = c :: decodeFrom .between bs := by
  have range := scalar_range c
  have whole : ∀ n, n = c.toNat → Char.ofNat n = c := fun n h => by rw [h, Char.ofNat_toNat]
  simp only [encodeChar]
  -- One case for each length; the bounds of the second octet keep overlong forms and surrogates out.
  split
  · next h =>
    rw [List.singleton_append, decodeFrom_cons, toNat_ofNat (by omega)]
    simp [step, first, h]
  · split
    · next h₁ h₂ =>
      rw [List.cons_append, List.singleton_append, decodeFrom_cons, toNat_ofNat (by omega),
        show step .between _ = first _ from rfl, first_two (by omega) (by omega), List.nil_append, decodeFrom_cons,
        toNat_ofNat (by omega), step_last (by omega) (by omega), whole _ (by omega)]
      rfl
    · split
      · next h₁ h₂ h₃ =>
        rw [List.cons_append, List.cons_append, List.singleton_append, decodeFrom_cons, toNat_ofNat (by omega),
          show step .between _ = first _ from rfl, first_three (by omega) (by omega), List.nil_append,
          decodeFrom_cons, toNat_ofNat (by omega), step_more (by omega) (by split <;> omega) (by split <;> omega),
          List.nil_append, decodeFrom_cons, toNat_ofNat (by omega), step_last (by omega) (by omega),
          whole _ (by omega)]
        rfl
      · next h₁ h₂ h₃ =>
        rw [List.cons_append, List.cons_append, List.cons_append, List.singleton_append, decodeFrom_cons,
          toNat_ofNat (by omega), show step .between _ = first _ from rfl, first_four (by omega) (by omega),
          List.nil_append, decodeFrom_cons, toNat_ofNat (by omega),
          step_more (by omega) (by split <;> omega) (by split <;> omega), List.nil_append, decodeFrom_cons,
          toNat_ofNat (by omega), step_more (by omega) (by omega) (by omega), List.nil_append, decodeFrom_cons,
          toNat_ofNat (by omega), step_last (by omega) (by omega), whole _ (by omega)]
        rfl

/-! ### Texts -/

/-- A text is read back as it was written. -/
theorem decode_encode (cs : List Char) : decode (encode cs) = cs := by
  unfold decode
  induction cs with
  | nil => rfl
  | cons c cs ih => rw [encode_cons, decodeFrom_encodeChar, ih]

theorem encodeChar_ne_nil (c : Char) : encodeChar c ≠ [] := by
  simp only [encodeChar]
  split
  · simp
  · split
    · simp
    · split <;> simp

theorem encode_ne_nil {cs : List Char} (h : cs ≠ []) : encode cs ≠ [] := by
  cases cs with
  | nil => exact absurd rfl h
  | cons c cs =>
    rw [encode_cons]
    exact List.append_ne_nil_of_left_ne_nil (encodeChar_ne_nil c) _

theorem first_cases (b : Nat) :
    (first b).1 ≠ [] ∨ ∃ bits owed least most, (first b).2 = .inside bits owed least most := by
  unfold first
  split
  · exact Or.inl (by simp)
  · split
    · exact Or.inl (by simp)
    · split
      · exact Or.inr ⟨_, _, _, _, rfl⟩
      · split
        · exact Or.inr ⟨_, _, _, _, rfl⟩
        · split
          · exact Or.inr ⟨_, _, _, _, rfl⟩
          · exact Or.inl (by simp)

theorem decodeFrom_inside_ne_nil (bits owed least most : Nat) (bs : List UInt8) :
    decodeFrom (.inside bits owed least most) bs ≠ [] := by
  induction bs generalizing bits owed least most with
  | nil => simp [decodeFrom]
  | cons b bs ih =>
    rw [decodeFrom_cons]
    simp only [step]
    split
    · split
      · simp
      · exact ih _ _ _ _
    · simp

theorem decode_ne_nil {bs : List UInt8} (h : bs ≠ []) : decode bs ≠ [] := by
  cases bs with
  | nil => exact absurd rfl h
  | cons b bs =>
    rw [decode, decodeFrom_cons, show step .between b.toNat = first b.toNat from rfl]
    rcases first_cases b.toNat with hf | ⟨bits, owed, least, most, hf⟩
    · exact List.append_ne_nil_of_left_ne_nil hf _
    · rw [hf]
      exact List.append_ne_nil_of_right_ne_nil _ (decodeFrom_inside_ne_nil _ _ _ _ _)

end Utf8
end Text
end MfaConsole
