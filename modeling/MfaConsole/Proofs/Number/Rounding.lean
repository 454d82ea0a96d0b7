import Mathlib.Algebra.Order.Field.Power
import Mathlib.Data.Int.Log
import Mathlib.Data.Rat.Floor
import Mathlib.Tactic.FieldSimp
import Mathlib.Tactic.Linarith
import Mathlib.Tactic.Positivity
import Mathlib.Tactic.Ring
import MfaConsole.Number.Rounding

/-! What rounding to a binary format makes of a fraction. The result depends on the number that the fraction stands for
    and not on how it is written, and is off by half of its last bit at most. -/

namespace MfaConsole
namespace Number

/-! ### Powers -/

theorem pow_toNat_div (b : ℚ) (e : ℤ) : b ^ e.toNat / b ^ (-e).toNat = b ^ e := by
  obtain ⟨k, rfl | rfl⟩ := e.eq_nat_or_neg <;> simp

theorem cast_twoTo (k : ℕ) : (twoTo k : ℚ) = 2 ^ k := Nat.cast_pow 2 k

theorem twoTo_pos (k : ℕ) : 0 < twoTo k := Nat.two_pow_pos k

theorem twoTo_div_twoTo (e : ℤ) : (twoTo e.toNat : ℚ) / twoTo (-e).toNat = 2 ^ e := by
  rw [cast_twoTo, cast_twoTo, pow_toNat_div]

/-- The number that a magnitude stands for. -/
def Magnitude.value (x : Magnitude) : ℚ := x.significand * 2 ^ x.exponent

theorem Magnitude.below_iff (x y : Magnitude) : x.below y = true ↔ x.value < y.value := by
  have ratio (z : Magnitude) : (z.ratio.1 : ℚ) / z.ratio.2 = z.value := by
    rw [value, ← twoTo_div_twoTo, ratio, Nat.cast_mul, mul_div_assoc]
  have pos (z : Magnitude) : (0 : ℚ) < z.ratio.2 := Nat.cast_pos.mpr (twoTo_pos _)
  rw [below, decide_eq_true_iff, ← ratio, ← ratio, div_lt_div_iff₀ (pos x) (pos y), ← Nat.cast_mul, ← Nat.cast_mul,
    Nat.cast_lt]

theorem Magnitude.value_pos_iff (x : Magnitude) : 0 < x.value ↔ x.significand ≠ 0 := by
  rw [value, mul_pos_iff_of_pos_right (by positivity), Nat.cast_pos, Nat.pos_iff_ne_zero]

/-! ### Whole numbers -/

theorem abs_roundHalfEven_sub_le (n : ℕ) {d : ℕ} (hd : 0 < d) : |(roundHalfEven n d : ℚ) - n / d| ≤ 1 / 2 := by
  have hd' : (0 : ℚ) < d := Nat.cast_pos.mpr hd
  have whole : (n : ℚ) / d = (n / d : ℕ) + (n % d : ℕ) / d := by
    rw [div_eq_iff hd'.ne', add_mul, div_mul_cancel₀ _ hd'.ne', mul_comm]
    exact_mod_cast (Nat.div_add_mod n d).symm
  have most : ((n % d : ℕ) : ℚ) / d < 1 := (div_lt_one hd').mpr (Nat.cast_lt.mpr (Nat.mod_lt n hd))
  have least : (0 : ℚ) ≤ ((n % d : ℕ) : ℚ) / d := by positivity
  rw [whole, roundHalfEven, abs_le]
  split
  · next low =>
    have : ((n % d : ℕ) : ℚ) / d < 1 / 2 := by
      rw [div_lt_div_iff₀ hd' two_pos, one_mul, mul_comm]
      exact_mod_cast low
    constructor <;> linarith
  · split
    · next high =>
      have : 1 / 2 < ((n % d : ℕ) : ℚ) / d := by
        rw [div_lt_div_iff₀ two_pos hd', one_mul, mul_comm _ (2 : ℚ)]
        exact_mod_cast high
      rw [Nat.cast_add, Nat.cast_one]
      constructor <;> linarith
    · next low high =>
      have middle : ((n % d : ℕ) : ℚ) / d = 1 / 2 := by
        rw [div_eq_div_iff hd'.ne' two_ne_zero, one_mul, mul_comm]
        exact_mod_cast Nat.le_antisymm (Nat.le_of_not_lt high) (Nat.le_of_not_lt low)
      rw [middle, Nat.cast_add]
      rcases Nat.mod_two_eq_zero_or_one (n / d) with even | odd
      · rw [even]
        norm_num
      · rw [odd]
        norm_num

theorem roundHalfEven_mul_left {c : ℕ} (hc : 0 < c) (n d : ℕ) : roundHalfEven (c * n) (c * d) = roundHalfEven n d := by
  have twice : 2 * (c * (n % d)) = c * (2 * (n % d)) := by ring
  simp only [roundHalfEven, Nat.mul_div_mul_left _ _ hc, Nat.mul_mod_mul_left, twice, Nat.mul_lt_mul_left hc]

theorem roundHalfEven_congr {n d n' d' : ℕ} (hd : 0 < d) (hd' : 0 < d') (h : n * d' = n' * d) :
    roundHalfEven n d = roundHalfEven n' d' := by
  rw [← roundHalfEven_mul_left hd' n d, ← roundHalfEven_mul_left hd n' d', Nat.mul_comm d' n, h, Nat.mul_comm d n',
    Nat.mul_comm d d']

/-! ### The last bit -/

theorem scaleDown_pos (num : ℕ) {den : ℕ} (hd : 0 < den) (e : ℤ) : 0 < (scaleDown num den e).2 :=
  Nat.mul_pos hd (twoTo_pos _)

theorem scaleDown_div (num den : ℕ) (e : ℤ) :
    ((scaleDown num den e).1 : ℚ) / (scaleDown num den e).2 = num / den / 2 ^ e := by
  rw [scaleDown, Nat.cast_mul, Nat.cast_mul, mul_div_mul_comm, ← inv_inv (2 ^ e : ℚ), ← zpow_neg, ← twoTo_div_twoTo,
    neg_neg, div_inv_eq_mul]

/-- A fraction rounded to a multiple of a power of two is off by half of that power at most. -/
theorem abs_roundHalfEven_mul_sub_le (num : ℕ) {den : ℕ} (hd : 0 < den) (e : ℤ) :
    |(roundHalfEven (scaleDown num den e).1 (scaleDown num den e).2 : ℚ) * 2 ^ e - num / den| ≤ 2 ^ e / 2 := by
  have pos : (0 : ℚ) < 2 ^ e := by positivity
  have scaled := abs_roundHalfEven_sub_le (scaleDown num den e).1 (scaleDown_pos num hd e)
  rw [scaleDown_div] at scaled
  calc |(roundHalfEven (scaleDown num den e).1 (scaleDown num den e).2 : ℚ) * 2 ^ e - num / den|
      = |(roundHalfEven (scaleDown num den e).1 (scaleDown num den e).2 : ℚ) - num / den / 2 ^ e| * 2 ^ e := by
        rw [← abs_of_pos pos, ← abs_mul, abs_of_pos pos, sub_mul, div_mul_cancel₀ _ pos.ne']
    _ ≤ 1 / 2 * 2 ^ e := mul_le_mul_of_nonneg_right scaled pos.le
    _ = 2 ^ e / 2 := by ring

/-- The last bit stands as many places below the first bit of the fraction as the format has, or where the least
    exponent is. -/
theorem lastBit_eq {f : Format} {num den : ℕ} (hn : 0 < num) (hd : 0 < den) :
    f.lastBit num den = max f.least (Int.log 2 (num / den : ℚ) + 1 - f.bits) := by
  have hn' : (0 : ℚ) < num := Nat.cast_pos.mpr hn
  have hd' : (0 : ℚ) < den := Nat.cast_pos.mpr hd
  have numLow : (2 : ℚ) ^ (num.log2 : ℤ) ≤ num := by exact_mod_cast Nat.log2_self_le hn.ne'
  have numHigh : (num : ℚ) < 2 ^ ((num.log2 : ℤ) + 1) := by exact_mod_cast Nat.lt_log2_self
  have denLow : (2 : ℚ) ^ (den.log2 : ℤ) ≤ den := by exact_mod_cast Nat.log2_self_le hd.ne'
  have denHigh : (den : ℚ) < 2 ^ ((den.log2 : ℤ) + 1) := by exact_mod_cast Nat.lt_log2_self
  have low : (num.log2 : ℤ) - (den.log2 + 1) ≤ Int.log 2 (num / den : ℚ) := by
    rw [← Int.zpow_le_iff_le_log one_lt_two (div_pos hn' hd'), Nat.cast_ofNat, zpow_sub₀ two_ne_zero]
    exact div_le_div₀ hn'.le numLow hd' denHigh.le
  have high : Int.log 2 (num / den : ℚ) < num.log2 + 1 - den.log2 := by
    rw [← Int.lt_zpow_iff_log_lt one_lt_two (div_pos hn' hd'), Nat.cast_ofNat, zpow_sub₀ two_ne_zero]
    exact div_lt_div₀ numHigh denLow (by positivity) (by positivity)
  -- The two numerals have their first bits at known places; which of the two places is that of the quotient is tested.
  have tested (e : ℤ) : twoTo f.bits ≤ (scaleDown num den e).1 / (scaleDown num den e).2 ↔
      e + f.bits ≤ Int.log 2 (num / den : ℚ) := by
    rw [Nat.le_div_iff_mul_le (scaleDown_pos num hd e), ← @Nat.cast_le ℚ, Nat.cast_mul,
      ← le_div_iff₀ (Nat.cast_pos.mpr (scaleDown_pos num hd e)), scaleDown_div, cast_twoTo, le_div_iff₀ (by positivity),
      ← Int.zpow_le_iff_le_log one_lt_two (div_pos hn' hd'), Nat.cast_ofNat, zpow_add₀ two_ne_zero, zpow_natCast,
      mul_comm]
  rw [Format.lastBit]
  simp only [tested]
  split <;> congr 1 <;> omega

/-! ### The nearest value -/

namespace Format

/-- The value of a format nearest to a number that is no less than zero; none where it is too large. -/
def nearest? (f : Format) (q : ℚ) : Option Magnitude := f.round? q.num.toNat q.den

/-- The exponent of the last bit of the value nearest to a number above zero. -/
def unit (f : Format) (q : ℚ) : ℤ := max f.least (Int.log 2 q + 1 - f.bits)

variable {f : Format}

theorem round?_congr {num den num' den' : ℕ} (hd : 0 < den) (hd' : 0 < den') (h : (num : ℚ) / den = num' / den') :
    f.round? num den = f.round? num' den' := by
  have cross : num * den' = num' * den := by
    rw [div_eq_div_iff (Nat.cast_ne_zero.mpr hd.ne') (Nat.cast_ne_zero.mpr hd'.ne')] at h
    exact_mod_cast h
  by_cases hn : num = 0
  · have hn' : num' = 0 := by simpa [hn, hd.ne', eq_comm] using cross
    rw [round?, round?, if_pos hn, if_pos hn']
  · have hn' : num' ≠ 0 := fun hn' => by simp [hn', hn, hd'.ne'] at cross
    have place : f.lastBit num den = f.lastBit num' den' := by
      rw [lastBit_eq (Nat.pos_of_ne_zero hn) hd, lastBit_eq (Nat.pos_of_ne_zero hn') hd', h]
    have digits (e : ℤ) : roundHalfEven (scaleDown num den e).1 (scaleDown num den e).2 =
        roundHalfEven (scaleDown num' den' e).1 (scaleDown num' den' e).2 := by
      refine roundHalfEven_congr (scaleDown_pos num hd e) (scaleDown_pos num' hd' e) ?_
      simp only [scaleDown]
      rw [Nat.mul_mul_mul_comm, cross, Nat.mul_mul_mul_comm]
    simp only [round?, if_neg hn, if_neg hn', place, digits]

theorem toNat_num_div_den {q : ℚ} (hq : 0 ≤ q) : (q.num.toNat : ℚ) / q.den = q := by
  rw [← Int.cast_natCast, Int.toNat_of_nonneg (Rat.num_nonneg.mpr hq), Rat.num_div_den]

/-- Rounding depends on the number that a fraction stands for and not on how it is written. -/
theorem round?_eq_nearest? (num : ℕ) {den : ℕ} (hd : 0 < den) : f.round? num den = f.nearest? (num / den) :=
  round?_congr hd (Rat.den_pos _) (toNat_num_div_den (by positivity)).symm

@[simp] theorem nearest?_zero : f.nearest? 0 = some ⟨0, f.least⟩ := rfl

/-- The nearest value is off by half of its last bit at most. -/
theorem exists_nearest? {q : ℚ} (hb : 0 < f.bits) (hq : 0 < q) (room : f.unit q < f.most) :
    ∃ m, f.nearest? q = some m ∧ |m.value - q| ≤ 2 ^ f.unit q / 2 := by
  have hn : 0 < q.num.toNat := Int.lt_toNat.mpr (Rat.num_pos.mpr hq)
  have place : f.lastBit q.num.toNat q.den = f.unit q := by rw [lastBit_eq hn q.den_pos, toNat_num_div_den hq.le, unit]
  have near := abs_roundHalfEven_mul_sub_le q.num.toNat q.den_pos (f.unit q)
  rw [toNat_num_div_den hq.le] at near
  rw [nearest?, round?, if_neg hn.ne', place]
  dsimp only
  generalize roundHalfEven (scaleDown q.num.toNat q.den (f.unit q)).1 (scaleDown _ _ (f.unit q)).2 = k at near ⊢
  by_cases carry : k = twoTo f.bits
  · -- The carry takes the significand to the next place and keeps the value.
    refine ⟨⟨twoTo (f.bits - 1), f.unit q + 1⟩, by rw [if_pos carry, if_pos (by omega)], ?_⟩
    have same : Magnitude.value ⟨twoTo (f.bits - 1), f.unit q + 1⟩ = k * 2 ^ f.unit q := by
      rw [Magnitude.value, carry, cast_twoTo, cast_twoTo, zpow_add_one₀ two_ne_zero, mul_left_comm, ← pow_succ,
        Nat.sub_add_cancel hb, mul_comm]
    rwa [same]
  · exact ⟨⟨k, f.unit q⟩, by rw [if_neg carry, if_pos room.le], near⟩

end Format

/-! ### What is kept of the order -/

/-- Numbers that are further apart than both are off keep their order. -/
theorem Magnitude.below_iff_of_apart {x y : Magnitude} {p q ε : ℚ} (hx : |x.value - p| ≤ ε) (hy : |y.value - q| ≤ ε)
    (apart : 2 * ε < |p - q|) : x.below y = true ↔ p < q := by
  rw [below_iff]
  obtain ⟨lowX, highX⟩ := abs_le.mp hx
  obtain ⟨lowY, highY⟩ := abs_le.mp hy
  constructor
  · intro less
    by_contra notLess
    rw [abs_of_nonneg (by linarith)] at apart
    linarith
  · intro less
    rw [abs_of_neg (by linarith)] at apart
    linarith

/-- A number up to one is off by less than a sixteen millionth when it is rounded to 32 bits. -/
theorem exists_nearest?_binary32 {q : ℚ} (nonneg : 0 ≤ q) (most : q ≤ 1) :
    ∃ m, binary32.nearest? q = some m ∧ |m.value - q| ≤ 1 / 2 ^ 24 := by
  rcases nonneg.eq_or_lt with rfl | pos
  · exact ⟨_, Format.nearest?_zero, by norm_num [Magnitude.value]⟩
  · have place : Int.log 2 q ≤ 0 := by
      simpa using Int.log_mono_right pos most
    have unit : binary32.unit q ≤ -23 := by
      simp only [Format.unit, binary32]
      omega
    obtain ⟨m, nearest, off⟩ := Format.exists_nearest? (f := binary32) (by decide) pos (unit.trans_lt (by decide))
    refine ⟨m, nearest, off.trans ?_⟩
    calc (2 : ℚ) ^ binary32.unit q / 2 ≤ 2 ^ (-23 : ℤ) / 2 := by gcongr; norm_num
      _ = 1 / 2 ^ 24 := by norm_num

end Number
end MfaConsole
