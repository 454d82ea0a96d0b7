import MfaConsole.Number.Digits
import MfaConsole.Number.Rounding

/-! Numbers of the 32-bit format, with infinities and the value that is no number, as a text stands for them. -/

namespace MfaConsole
namespace Number

/-- A 32-bit number. -/
inductive Single where
  | finite (isNegative : Bool) (magnitude : Magnitude)
  | infinite (isNegative : Bool)
  /-- No number; it is neither below nor above any other value. -/
  | undefined
  deriving DecidableEq, Repr

namespace Single

def mostPower : Int := 39

def leastPower : Int := -46

/-- The number nearest to `digits · 10 ^ exponent`. Whether it is out of range is told from the place of the first
    digit, so that no power of ten is ever large. -/
def ofDigits (isNegative : Bool) (digits : List Char) (exponent : Int) : Single :=
  let digits := digits.dropWhile (· == '0')
  let place := exponent + digits.length
  if digits = [] ∨ place ≤ leastPower then .finite isNegative ⟨0, binary32.least⟩
  else if mostPower < place then .infinite isNegative
  else match binary32.round? (digitsValue digits * tenTo exponent.toNat) (tenTo (-exponent).toNat) with
    | some m => .finite isNegative m
    | none => .infinite isNegative

/-- A decimal number: digits, perhaps with a point before, among or after them, then perhaps an exponent. -/
def decimal? (isNegative : Bool) (cs : List Char) : Option Single :=
  let whole := cs.takeWhile Char.isDigit
  let (fraction, rest) := match cs.dropWhile Char.isDigit with
    | '.' :: rest => (rest.takeWhile Char.isDigit, rest.dropWhile Char.isDigit)
    | rest => ([], rest)
  if whole = [] ∧ fraction = [] then none
  else (exponent? rest).map fun e => ofDigits isNegative (whole ++ fraction) (e - fraction.length)

/-- The names of the values that have no digits, in small letters. -/
def named? (isNegative : Bool) (cs : List Char) : Option Single :=
  let name := String.ofList (cs.map Char.toLower)
  if name = "inf" ∨ name = "infinity" then some (.infinite isNegative)
  else if name = "nan" then some .undefined
  else none

/-- A number without its sign. -/
def unsigned? (isNegative : Bool) (cs : List Char) : Option Single :=
  (decimal? isNegative cs).or (named? isNegative cs)

def ofChars? : List Char → Option Single
  | '-' :: cs => unsigned? true cs
  | '+' :: cs => unsigned? false cs
  | cs => unsigned? false cs

def one : Single := .finite false ⟨twoTo 23, -23⟩

def isPositive : Single → Bool
  | .finite isNegative m => !isNegative && m.significand != 0
  | .infinite isNegative => !isNegative
  | .undefined => false

/-- Whether a number above zero is below another number above zero. -/
def below : Single → Single → Bool
  | .finite _ a, .finite _ b => a.below b
  | .finite .., .infinite _ => true
  | _, _ => false

end Single
end Number
end MfaConsole
