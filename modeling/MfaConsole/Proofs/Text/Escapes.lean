import MfaConsole.Proofs.Text.Utf8
import MfaConsole.Text.Form

/-! Escaped texts. Path segments and the keys and values of queries are written octet by octet; reading undoes it
    for every text, and what is written holds no character that separates segments, keys or values. -/

namespace MfaConsole
namespace Text

/-! ### Characters of ASCII -/

theorem toNat_ofNat_ascii {n : Nat} (h : n < 0x80) : (Char.ofNat n).toNat = n := by
  revert n
  decide +kernel

theorem alphanum_range {c : Char} (h : c.isAlphanum = true) :
    48 ≤ c.toNat ∧ c.toNat ≤ 57 ∨ 65 ≤ c.toNat ∧ c.toNat ≤ 90 ∨ 97 ≤ c.toNat ∧ c.toNat ≤ 122 := by
  have bounds : '0'.val.toNat = 48 ∧ '9'.val.toNat = 57 ∧ 'A'.val.toNat = 65 ∧ 'Z'.val.toNat = 90 ∧
      'a'.val.toNat = 97 ∧ 'z'.val.toNat = 122 := by decide
  have classes : c.isAlphanum = (decide (c.val ≥ 'A'.val ∧ c.val ≤ 'Z'.val) ||
      (decide (c.val ≥ 'a'.val) && decide (c.val ≤ 'z'.val)) ||
      (decide (c.val ≥ '0'.val) && decide (c.val ≤ '9'.val))) := rfl
  rw [classes] at h
  simp only [Bool.or_eq_true, Bool.and_eq_true, decide_eq_true_eq, ge_iff_le, UInt32.le_iff_toNat_le,
    Char.toNat_val] at h bounds
  omega

theorem Utf8.encodeChar_ascii {n : Nat} (h : n < 0x80) : Utf8.encodeChar (Char.ofNat n) = [UInt8.ofNat n] := by
  simp [Utf8.encodeChar, toNat_ofNat_ascii h, h]

namespace Percent

/-! ### Octets -/

theorem unescape_cons_of_ne {a : UInt8} (h : a ≠ 0x25) : ∀ bs : List UInt8, unescape (a :: bs) = a :: unescape bs
  | [] => rfl
  | [_] => rfl
  | _ :: _ :: _ => by rw [unescape, if_neg h]

def digitOctet (n : Nat) : UInt8 := UInt8.ofNat (hexDigit n).toNat

theorem digit_facts : ∀ n, n < 16 →
    Utf8.encodeChar (hexDigit n) = [digitOctet n] ∧ hexValue? (digitOctet n) = some n ∧ digitOctet n ≠ 0x2B ∧
      (hexDigit n).isAlphanum = true := by
  decide

theorem encode_escape (b : UInt8) :
    Utf8.encode (escape b) = [0x25, digitOctet (b.toNat / 16), digitOctet (b.toNat % 16)] := by
  have hb := b.toNat_lt
  have high := (digit_facts (b.toNat / 16) (by omega)).1
  have low := (digit_facts (b.toNat % 16) (by omega)).1
  simp only [escape, Utf8.encode, List.flatMap_cons, List.flatMap_nil, high, low]
  rfl

theorem unescape_escape (b : UInt8) (bs : List UInt8) :
    unescape (0x25 :: digitOctet (b.toNat / 16) :: digitOctet (b.toNat % 16) :: bs) = b :: unescape bs := by
  have hb := b.toNat_lt
  have whole : b.toNat / 16 * 16 + b.toNat % 16 = b.toNat := by omega
  rw [unescape, if_pos rfl, (digit_facts _ (by omega)).2.1, (digit_facts _ (by omega)).2.1]
  simp [whole]

/-- A way of writing octets is undone by reading, where each octet read may first stand for another one. -/
def Undone (stands : UInt8 → UInt8) (write : UInt8 → List Char) : Prop :=
  ∀ b bs, unescape ((Utf8.encode (write b)).map stands ++ bs) = b :: unescape bs

theorem Undone.unescape_flatMap {stands : UInt8 → UInt8} {write : UInt8 → List Char} (h : Undone stands write) :
    ∀ bs : List UInt8, unescape ((Utf8.encode (bs.flatMap write)).map stands) = bs
  | [] => rfl
  | b :: bs => by
    rw [List.flatMap_cons, Utf8.encode_append, List.map_append, h, h.unescape_flatMap bs]

/-! ### Segments -/

theorem undone_segmentOctet : Undone id segmentOctet := by
  intro b bs
  rw [List.map_id, segmentOctet]
  split
  · next hk =>
    simp only [segmentKeeps, Bool.and_eq_true, decide_eq_true_eq, Bool.not_eq_true', and_assoc] at hk
    obtain ⟨-, hlt, hs⟩ := hk
    have hne : b ≠ 0x25 := by
      rintro rfl
      exact absurd hs (by decide)
    rw [Utf8.encode_cons, Utf8.encodeChar_ascii (by omega), UInt8.ofNat_toNat]
    exact unescape_cons_of_ne hne bs
  · rw [encode_escape]
    exact unescape_escape b bs

/-- A segment stands for the text it was written from. -/
theorem decodeChars_segmentChars (cs : List Char) : decodeChars (segmentChars cs) = cs := by
  have h := undone_segmentOctet.unescape_flatMap (Utf8.encode cs)
  rw [List.map_id] at h
  rw [decodeChars, segmentChars, h, Utf8.decode_encode]

def SegmentChar (c : Char) : Prop :=
  0x20 < c.toNat ∧ c.toNat < 0x7F ∧ (c = '%' ∨ c ∉ segmentSpecials)

theorem segmentChar_of_alphanum {c : Char} (h : c.isAlphanum = true) : SegmentChar c := by
  have range := alphanum_range h
  refine ⟨by omega, by omega, Or.inr fun hm => ?_⟩
  simp only [segmentSpecials, List.mem_cons, List.not_mem_nil, or_false] at hm
  rcases hm with rfl | rfl | rfl | rfl | rfl | rfl | rfl | rfl | rfl | rfl <;> exact absurd range (by decide)

theorem mem_escape {c : Char} {b : UInt8} (h : c ∈ escape b) : c = '%' ∨ c.isAlphanum = true := by
  have hb := b.toNat_lt
  simp only [escape, List.mem_cons, List.not_mem_nil, or_false] at h
  rcases h with rfl | rfl | rfl
  · exact Or.inl rfl
  · exact Or.inr (digit_facts _ (by omega)).2.2.2
  · exact Or.inr (digit_facts _ (by omega)).2.2.2

theorem segmentChar_of_mem {c : Char} {cs : List Char} (h : c ∈ segmentChars cs) : SegmentChar c := by
  obtain ⟨b, -, h⟩ := List.mem_flatMap.mp h
  unfold segmentOctet at h
  split at h
  · next hk =>
    obtain rfl := List.mem_singleton.mp h
    simp only [segmentKeeps, Bool.and_eq_true, decide_eq_true_eq, Bool.not_eq_true', and_assoc,
      List.contains_eq_mem, decide_eq_false_iff_not] at hk
    have hn := toNat_ofNat_ascii (n := b.toNat) (by omega)
    exact ⟨by omega, by omega, Or.inr hk.2.2⟩
  · rcases mem_escape h with rfl | h
    · exact ⟨by decide, by decide, Or.inl rfl⟩
    · exact segmentChar_of_alphanum h

theorem segmentChars_ne_nil {cs : List Char} (h : cs ≠ []) : segmentChars cs ≠ [] := by
  intro hn
  have := decodeChars_segmentChars cs
  rw [hn] at this
  exact h this.symm

theorem unescape_ne_nil : ∀ {bs : List UInt8}, bs ≠ [] → unescape bs ≠ []
  | [], h => absurd rfl h
  | [_], _ => by simp [unescape]
  | [_, _], _ => by simp [unescape]
  | _ :: _ :: _ :: _, _ => by
    rw [unescape]
    split
    · split <;> simp
    · simp

theorem decodeChars_ne_nil {cs : List Char} (h : cs ≠ []) : decodeChars cs ≠ [] :=
  Utf8.decode_ne_nil (unescape_ne_nil (Utf8.encode_ne_nil h))

end Percent

namespace Form

/-- What an octet of a query stands for before its escapes are read: a plus sign is a blank. -/
def unplus (b : UInt8) : UInt8 := if b = 0x2B then 0x20 else b

theorem undone_octet : Percent.Undone unplus octet := by
  intro b bs
  have hb := b.toNat_lt
  rw [octet]
  split
  · next hk =>
    simp only [keeps, Bool.and_eq_true, decide_eq_true_eq] at hk
    have hne : b ≠ 0x25 ∧ b ≠ 0x2B := by
      constructor <;> rintro rfl <;> exact absurd hk (by decide)
    rw [Utf8.encode_cons, Utf8.encodeChar_ascii hk.1, UInt8.ofNat_toNat]
    simp only [Utf8.encode_nil, List.append_nil, List.map_cons, List.map_nil, unplus, if_neg hne.2]
    exact Percent.unescape_cons_of_ne hne.1 bs
  · split
    · next h => exact h ▸ Percent.unescape_cons_of_ne (by decide) bs
    · have high := (Percent.digit_facts (b.toNat / 16) (by omega)).2.2.1
      have low := (Percent.digit_facts (b.toNat % 16) (by omega)).2.2.1
      rw [Percent.encode_escape]
      simp only [List.map_cons, List.map_nil, unplus, if_neg high, if_neg low]
      exact Percent.unescape_escape b bs

/-- A key or value stands for the text it was written from. -/
theorem decodeChars_encodeChars (cs : List Char) : decodeChars (encodeChars cs) = cs := by
  have h := undone_octet.unescape_flatMap (Utf8.encode cs)
  rw [decodeChars, encodeChars]
  exact (congrArg Utf8.decode h).trans (Utf8.decode_encode cs)

theorem mem_encodeChars {c : Char} {cs : List Char} (h : c ∈ encodeChars cs) :
    c.isAlphanum = true ∨ c ∈ ['*', '-', '.', '_', '+', '%'] := by
  obtain ⟨b, -, h⟩ := List.mem_flatMap.mp h
  unfold octet at h
  split at h
  · next hk =>
    obtain rfl := List.mem_singleton.mp h
    simp only [keeps, Bool.and_eq_true, Bool.or_eq_true, beq_iff_eq] at hk
    rcases hk.2 with (((hk | hk) | hk) | hk) | hk
    · exact Or.inl hk
    all_goals exact Or.inr (by rw [hk]; decide)
  · split at h
    · obtain rfl := List.mem_singleton.mp h
      exact Or.inr (by decide)
    · rcases Percent.mem_escape h with rfl | h
      · exact Or.inr (by decide)
      · exact Or.inl h

end Form
end Text
end MfaConsole
