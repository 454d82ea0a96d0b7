import MfaConsole.Text.Utf8

/-! Percent escapes. A path segment is written octet by octet, with the octets that would end it or be misread
    escaped; reading takes every well-formed escape and leaves the others as they stand. -/

namespace MfaConsole
namespace Text
namespace Percent

def hexDigit (n : Nat) : Char :=
  if n < 10 then Char.ofNat (48 + n) else Char.ofNat (55 + n)

/-- The value of a hexadecimal digit of either case, given as an octet. -/
def hexValue? (b : UInt8) : Option Nat :=
  let n := b.toNat
  if 48 ≤ n ∧ n ≤ 57 then some (n - 48)
  else if 65 ≤ n ∧ n ≤ 70 then some (n - 55)
  else if 97 ≤ n ∧ n ≤ 102 then some (n - 87)
  else none

def escape (b : UInt8) : List Char :=
  ['%', hexDigit (b.toNat / 16), hexDigit (b.toNat % 16)]

/-- The characters a segment may not hold as they are, besides controls, blanks and what is not ASCII. -/
def segmentSpecials : List Char :=
  ['"', '#', '%', '/', '<', '>', '?', '\x60', '\x7b', '\x7d']

def segmentKeeps (b : UInt8) : Bool :=
  0x20 < b.toNat && b.toNat < 0x7F && !segmentSpecials.contains (Char.ofNat b.toNat)

def segmentOctet (b : UInt8) : List Char :=
  if segmentKeeps b then [Char.ofNat b.toNat] else escape b

def segmentChars (cs : List Char) : List Char :=
  (Utf8.encode cs).flatMap segmentOctet

/-- One path segment, so that the text cannot end it. -/
def segment (s : String) : String :=
  String.ofList (segmentChars s.toList)

/-- The octets with each well-formed escape replaced by the octet it names. -/
def unescape : List UInt8 → List UInt8
  | [] => []
  | [a] => [a]
  | [a, b] => [a, b]
  | a :: b :: c :: rest =>
    if a = 0x25 then
      match hexValue? b, hexValue? c with
      | some high, some low => UInt8.ofNat (high * 16 + low) :: unescape rest
      | _, _ => a :: unescape (b :: c :: rest)
    else a :: unescape (b :: c :: rest)

def decodeChars (cs : List Char) : List Char :=
  Utf8.decode (unescape (Utf8.encode cs))

end Percent
end Text
end MfaConsole
