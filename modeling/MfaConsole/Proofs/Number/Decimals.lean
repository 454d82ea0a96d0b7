import Mathlib.Data.List.TakeWhile
import MfaConsole.Number.Single
import MfaConsole.Proofs.Number.Rounding
import MfaConsole.Proofs.Text.Pieces

/-! What a text of digits with a point among them is read as: the 32-bit number nearest to the number it stands for. -/

namespace MfaConsole
namespace Number

theorem cast_tenTo (k : ℕ) : (tenTo k : ℚ) = 10 ^ k := Nat.cast_pow 10 k

theorem tenTo_pos (k : ℕ) : 0 < tenTo k := Nat.pow_pos (by decide)

/-! ### Digits -/

@[simp] theorem digitsValue_nil : digitsValue [] = 0 := rfl

theorem digitsValue_concat (cs : List Char) (c : Char) : digitsValue (cs ++ [c]) = digitsValue cs * 10 + digitValue c :=
  List.foldl_append

theorem digitsValue_cons_zero (cs : List Char) : digitsValue ('0' :: cs) = digitsValue cs := rfl

theorem digitsValue_dropWhile : ∀ cs : List Char, digitsValue (cs.dropWhile (· == '0')) = digitsValue cs
  | [] => rfl
  | c :: cs => by
    by_cases hc : c = '0'
    · rw [hc, List.dropWhile_cons_of_pos (by decide), digitsValue_dropWhile cs, digitsValue_cons_zero]
    · rw [List.dropWhile_cons_of_neg (by simpa using hc)]

theorem digitValue_lt {c : Char} (h : c.isDigit = true) : digitValue c < 10 := by
  simp only [Char.isDigit, Bool.and_eq_true, decide_eq_true_eq] at h
  have last : c.toNat ≤ 57 := h.2
  rw [digitValue]
  omega

theorem digitsValue_lt {cs : List Char} (h : cs.all Char.isDigit = true) : digitsValue cs < 10 ^ cs.length := by
  induction cs using List.reverseRecOn with
  | nil => exact Nat.one_pos
  | append_singleton cs c ih =>
    simp only [List.all_append, List.all_cons, List.all_nil, Bool.and_true, Bool.and_eq_true] at h
    have least := ih h.1
    have last := digitValue_lt h.2
    rw [digitsValue_concat, List.length_append, List.length_singleton, Nat.pow_succ]
    omega

theorem digitsValue_append_zeros (cs : List Char) :
    ∀ n, digitsValue (cs ++ List.replicate n '0') = digitsValue cs * 10 ^ n
  | 0 => by simp
  | n + 1 => by
    have zero : digitValue '0' = 0 := rfl
    rw [List.replicate_succ', ← List.append_assoc, digitsValue_concat, digitsValue_append_zeros cs n, zero,
      Nat.add_zero, Nat.mul_assoc, Nat.pow_succ]

/-- The number that a text stands for: its digits as a whole number, a tenth of it for each digit after the point. -/
def exactly (cs : List Char) : ℚ :=
  let (whole, fraction) := Text.cutOrAll '.' cs
  digitsValue (whole ++ fraction) / 10 ^ fraction.length

namespace Single

/-- Digits that stand for no number out of range are read as the value nearest to them. -/
theorem ofDigits_eq {digits : List Char} {exponent : ℤ} {m : Magnitude} (isNegative : Bool)
    (low : leastPower < exponent) (high : exponent + digits.length ≤ mostPower)
    (nearest : binary32.nearest? (digitsValue digits * 10 ^ exponent) = some m) :
    ofDigits isNegative digits exponent = .finite isNegative m := by
  have shorter : (digits.dropWhile (· == '0')).length ≤ digits.length := (List.dropWhile_suffix _).length_le
  have same := digitsValue_dropWhile digits
  rw [ofDigits]
  split
  · next none =>
    have zero : digits.dropWhile (· == '0') = [] := none.resolve_right (by omega)
    rw [← same, zero, digitsValue_nil, Nat.cast_zero, zero_mul, Format.nearest?_zero] at nearest
    cases nearest
    rfl
  · split
    · next huge => omega
    · rw [same, Format.round?_eq_nearest? _ (tenTo_pos _), Nat.cast_mul, mul_div_assoc, cast_tenTo, cast_tenTo,
        pow_toNat_div, nearest]

variable {cs whole fraction : List Char}

theorem decimal?_eq (isNegative : Bool) (cut : Text.cutOrAll '.' cs = (whole, fraction)) (ne : whole ≠ [])
    (hw : whole.all Char.isDigit = true) (hf : fraction.all Char.isDigit = true) :
    decimal? isNegative cs = some (ofDigits isNegative (whole ++ fraction) (-fraction.length)) := by
  have digits : ∀ c ∈ whole, c.isDigit = true := List.all_eq_true.mp hw
  have more : ∀ c ∈ fraction, c.isDigit = true := List.all_eq_true.mp hf
  rcases Text.eq_of_cutOrAll cut with ⟨rfl, rfl⟩ | rfl
  · rw [decimal?, List.takeWhile_eq_self_iff.mpr digits, List.dropWhile_eq_nil_iff.mpr digits]
    simp [ne, exponent?]
  · have point : ('.' : Char).isDigit = false := by decide
    rw [decimal?, List.takeWhile_append_of_pos digits, List.dropWhile_append_of_pos digits,
      List.takeWhile_cons_of_neg (by simp [point]), List.dropWhile_cons_of_neg (by simp [point]), List.append_nil]
    simp only [List.takeWhile_eq_self_iff.mpr more, List.dropWhile_eq_nil_iff.mpr more]
    simp [ne, exponent?]

theorem ofChars?_eq (cut : Text.cutOrAll '.' cs = (whole, fraction)) (ne : whole ≠ [])
    (hw : whole.all Char.isDigit = true) (hf : fraction.all Char.isDigit = true) :
    ofChars? cs = some (ofDigits false (whole ++ fraction) (-fraction.length)) := by
  have read := decimal?_eq false cut ne hw hf
  have first : ∀ c rest, cs = c :: rest → c.isDigit = true := by
    rintro c rest rfl
    obtain ⟨d, ds, rfl⟩ := List.exists_cons_of_ne_nil ne
    have digit : d.isDigit = true := List.all_eq_true.mp hw d List.mem_cons_self
    rcases Text.eq_of_cutOrAll cut with ⟨same, -⟩ | same
    · rwa [(List.cons.inj same).1]
    · rwa [(List.cons.inj same).1]
  unfold ofChars?
  split
  · next rest => exact absurd (first '-' rest rfl) (by decide)
  · next rest => exact absurd (first '+' rest rfl) (by decide)
  · rw [unsigned?, read, Option.some_or]

end Single
end Number
end MfaConsole
