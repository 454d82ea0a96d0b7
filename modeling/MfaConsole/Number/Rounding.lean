import MfaConsole.Number.Digits

/-! Rounding a fraction to a binary floating-point format, in exact arithmetic: to the nearest value, of two
    nearest ones to that with the even significand. -/

namespace MfaConsole
namespace Number

/-- A binary format: the bits of a significand, and the least and the greatest exponent of its last bit. -/
structure Format where
  bits : Nat
  least : Int
  most : Int
  deriving DecidableEq, Repr

def binary64 : Format := ⟨53, -1074, 971⟩

def binary32 : Format := ⟨24, -149, 104⟩

/-- A number that is no less than zero, `significand · 2 ^ exponent`. -/
structure Magnitude where
  significand : Nat
  exponent : Int
  deriving DecidableEq, Repr

/-- The nearest whole number to a fraction, of two nearest ones the even one. -/
def roundHalfEven (num den : Nat) : Nat :=
  let q := num / den
  let r := 2 * (num % den)
  if r < den then q else if den < r then q + 1 else q + q % 2

/-- The fraction `num / den / 2 ^ e` as numerator and denominator. -/
def scaleDown (num den : Nat) (e : Int) : Nat × Nat :=
  (num * twoTo (-e).toNat, den * twoTo e.toNat)

/-- The exponent of the last bit of the value nearest to a fraction above zero. -/
def Format.lastBit (f : Format) (num den : Nat) : Int :=
  let e : Int := num.log2 - den.log2 - f.bits
  let (n, d) := scaleDown num den e
  max f.least (if twoTo f.bits ≤ n / d then e + 1 else e)

/-- The value of the format nearest to a fraction; none where it is too large. -/
def Format.round? (f : Format) (num den : Nat) : Option Magnitude :=
  if num = 0 then some ⟨0, f.least⟩
  else
    let e := f.lastBit num den
    let (n, d) := scaleDown num den e
    let m := roundHalfEven n d
    let (m, e) := if m = twoTo f.bits then (twoTo (f.bits - 1), e + 1) else (m, e)
    if e ≤ f.most then some ⟨m, e⟩ else none

namespace Magnitude

def ratio (x : Magnitude) : Nat × Nat :=
  (x.significand * twoTo x.exponent.toNat, twoTo (-x.exponent).toNat)

/-- The product, rounded. -/
def mul? (f : Format) (x y : Magnitude) : Option Magnitude :=
  f.round? (x.ratio.1 * y.ratio.1) (x.ratio.2 * y.ratio.2)

/-- The quotient, rounded. -/
def div? (f : Format) (x y : Magnitude) : Option Magnitude :=
  f.round? (x.ratio.1 * y.ratio.2) (x.ratio.2 * y.ratio.1)

def below (x y : Magnitude) : Bool :=
  x.ratio.1 * y.ratio.2 < y.ratio.1 * x.ratio.2

end Magnitude
end Number
end MfaConsole
