import MfaConsole.Number.Rounding

/-! The shortest decimal that reads back as a value of a binary format: of the fewest digits, and of those the
    nearest to the value. -/

namespace MfaConsole
namespace Number

/-- A decimal number, `digits · 10 ^ exponent`. -/
structure Decimal where
  digits : Nat
  exponent : Int
  deriving DecidableEq, Repr

/-- The exponent of the leading decimal digit of a fraction above zero. -/
def leadingDigit (num den : Nat) : Int :=
  let e : Int := (Nat.toDigits 10 num).length - (Nat.toDigits 10 den).length
  if den * tenTo e.toNat ≤ num * tenTo (-e).toNat then e else e - 1

/-- Twice the distance of `c · 10 ^ k` from a fraction, on the scale of that fraction's own units: both sides of
    the comparison are multiplied by the same denominator. -/
def onScale (c : Nat) (k : Int) (units : Nat) (q : Int) : Nat × Nat :=
  (c * tenTo k.toNat * twoTo (-q).toNat, units * twoTo q.toNat * tenTo (-k).toNat)

/-- Whether `c · 10 ^ k` is read as `x`: it lies between the midpoints to the neighbours of `x`, which count as
    `x` themselves when its significand is even. -/
def readsBack (f : Format) (x : Magnitude) (c : Nat) (k : Int) : Bool :=
  let q := x.exponent - 2
  let narrow := x.significand = twoTo (f.bits - 1) ∧ f.least < x.exponent
  let (low, lowEnd) := onScale c k (4 * x.significand - (if narrow then 1 else 2)) q
  let (high, highEnd) := onScale c k (4 * x.significand + 2) q
  if x.significand % 2 = 0 then lowEnd ≤ low ∧ high ≤ highEnd else lowEnd < low ∧ high < highEnd

/-- A decimal of at most `n` digits that is read as `x`, if there is one; of two the nearer, of two equally near
    the even one. -/
def decimalOf? (f : Format) (x : Magnitude) (n : Nat) : Option Decimal :=
  let (num, den) := x.ratio
  let k := leadingDigit num den - (n - 1 : Nat)
  let scaledNum := num * tenTo (-k).toNat
  let scaledDen := den * tenTo k.toNat
  let c := scaledNum / scaledDen
  let nearest := roundHalfEven scaledNum scaledDen
  let other := if nearest = c then c + 1 else c
  ([nearest, other].find? fun c => readsBack f x c k).map fun c => ⟨c, k⟩

/-- The decimal without zeros at its end. -/
def Decimal.stripped (d : Decimal) : Decimal :=
  let zeros := ((Nat.toDigits 10 d.digits).reverse.takeWhile (· == '0')).length
  if d.digits = 0 then d else ⟨d.digits / tenTo zeros, d.exponent + zeros⟩

def shortest (f : Format) (x : Magnitude) : Decimal :=
  (((List.range' 1 17).findSome? (decimalOf? f x)).getD ⟨0, 0⟩).stripped

/-- A decimal as text: in positions while its leading digit stands for `10 ^ -5` to `10 ^ 15`, and then with a
    point and a digit after it; else with an exponent that has a sign. -/
def Decimal.chars (d : Decimal) : List Char :=
  let ds := Nat.toDigits 10 d.digits
  let lead : Int := d.exponent + ds.length - 1
  if -5 ≤ lead ∧ lead ≤ 15 then
    if 0 ≤ d.exponent then ds ++ List.replicate d.exponent.toNat '0' ++ ['.', '0']
    else if 0 ≤ lead then ds.take (lead.toNat + 1) ++ '.' :: ds.drop (lead.toNat + 1)
    else ['0', '.'] ++ List.replicate (-lead - 1).toNat '0' ++ ds
  else
    let power := (if 0 ≤ lead then '+' else '-') :: Nat.toDigits 10 lead.natAbs
    ds.take 1 ++ (if ds.length ≤ 1 then [] else '.' :: ds.drop 1) ++ 'e' :: power

end Number
end MfaConsole
