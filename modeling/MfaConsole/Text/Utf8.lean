/-! UTF-8. Writing is total. Reading never fails either: each longest run of octets that begins a character and
    cannot be continued, and each octet that begins none, is read as one U+FFFD. -/

namespace MfaConsole
namespace Text
namespace Utf8

def encodeChar (c : Char) : List UInt8 :=
  let n := c.toNat
  if n < 0x80 then [UInt8.ofNat n]
  else if n < 0x800 then [UInt8.ofNat (0xC0 + n / 64), UInt8.ofNat (0x80 + n % 64)]
  else if n < 0x10000 then
    [UInt8.ofNat (0xE0 + n / 4096), UInt8.ofNat (0x80 + n / 64 % 64), UInt8.ofNat (0x80 + n % 64)]
  else
    [UInt8.ofNat (0xF0 + n / 262144), UInt8.ofNat (0x80 + n / 4096 % 64), UInt8.ofNat (0x80 + n / 64 % 64),
     UInt8.ofNat (0x80 + n % 64)]

def encode (cs : List Char) : List UInt8 :=
  cs.flatMap encodeChar

def replacement : Char := '\ufffd'

/-- Where a reader stands: between characters, or with `owed` octets of a character still to come. -/
inductive Place where
  | between
  /-- The bits read so far, how many octets follow, and the bounds of the next one. -/
  | inside (bits owed least most : Nat)
  deriving DecidableEq, Repr

/-- The first octet of a character: the characters finished by it and the place after it. -/
def first (b : Nat) : List Char × Place :=
  if b < 0x80 then ([Char.ofNat b], .between)
  else if b < 0xC2 then ([replacement], .between)
  else if b < 0xE0 then ([], .inside (b - 0xC0) 1 0x80 0xBF)
  else if b < 0xF0 then
    ([], .inside (b - 0xE0) 2 (if b = 0xE0 then 0xA0 else 0x80) (if b = 0xED then 0x9F else 0xBF))
  else if b < 0xF5 then
    ([], .inside (b - 0xF0) 3 (if b = 0xF0 then 0x90 else 0x80) (if b = 0xF4 then 0x8F else 0xBF))
  else ([replacement], .between)

/-- One octet: the characters finished by it and the place after it. An octet that does not continue the
    character begun is read anew as a first one. -/
def step : Place → Nat → List Char × Place
  | .between, b => first b
  | .inside bits owed least most, b =>
    if least ≤ b ∧ b ≤ most then
      let bits := bits * 64 + (b - 0x80)
      if owed ≤ 1 then ([Char.ofNat bits], .between) else ([], .inside bits (owed - 1) 0x80 0xBF)
    else
      let (cs, place) := first b
      (replacement :: cs, place)

/-- The characters of the octets, from a place on. -/
def decodeFrom : Place → List UInt8 → List Char
  | .between, [] => []
  | .inside .., [] => [replacement]
  | place, b :: bs => (step place b.toNat).1 ++ decodeFrom (step place b.toNat).2 bs

def decode (bs : List UInt8) : List Char :=
  decodeFrom .between bs

end Utf8
end Text
end MfaConsole
