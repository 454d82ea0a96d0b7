import MfaConsole.Number.Digits
import MfaConsole.Number.Shortest

/-! Doubles: finite numbers of the 64-bit format, with a sign of their own for zero. A decimal literal is read by
    taking its leading digits, as many as fit 64 bits, and scaling them by a power of ten, with one rounding for
    the digits, one for the power and one for the result. -/

namespace MfaConsole
namespace Number

/-- A finite 64-bit number. -/
structure Double where
  negative : Bool
  magnitude : Magnitude
  deriving DecidableEq, Repr

namespace Double

def mostPower : Nat := 308

def power? (k : Nat) : Option Magnitude :=
  binary64.round? (tenTo k) 1

/-- A double divided by `10 ^ k`, in two divisions where `10 ^ k` is no double. -/
def divideByPower? (x : Magnitude) (k : Nat) : Option Magnitude :=
  if k ≤ mostPower then do x.div? binary64 (← power? k)
  else do
    let y ← x.div? binary64 (← power? mostPower)
    let k := k - mostPower
    if k ≤ mostPower then y.div? binary64 (← power? k) else some ⟨0, binary64.least⟩

/-- The double for `digits · 10 ^ exponent`, where the digits fit 64 bits; none where it is too large. -/
def scale? (digits : Nat) (exponent : Int) : Option Magnitude := do
  let x ← binary64.round? digits 1
  if x.significand = 0 then some x
  else if exponent < 0 then divideByPower? x (-exponent).toNat
  else if exponent.toNat ≤ mostPower then x.mul? binary64 (← power? exponent.toNat)
  else none

/-- The first number past 64 bits. -/
def wordLimit : Nat := UInt64.size

/-- The leading digits of a whole part that fit 64 bits after `sofar`, and how many digits stand after them. -/
def leading : (sofar : Nat) → List Char → Nat × Nat
  | sofar, [] => (sofar, 0)
  | sofar, c :: cs =>
    let next := sofar * 10 + digitValue c
    if wordLimit ≤ next then (sofar, cs.length + 1) else leading next cs

/-- The double for a literal's whole digits, its digits after the point and its exponent. -/
def ofLiteral? (whole fraction : List Char) (exponent : Int) : Option Magnitude :=
  let (digits, dropped) := leading 0 whole
  let (digits, unread) := leading digits fraction
  scale? digits (exponent + dropped - (fraction.length - unread : Nat))

/-- The shortest decimal that is read as the double, with its sign. -/
def chars (x : Double) : List Char :=
  (if x.negative then ['-'] else []) ++
    if x.magnitude.significand = 0 then ['0', '.', '0'] else (shortest binary64 x.magnitude).chars

end Double
end Number
end MfaConsole
