import MfaConsole.Text.Percent
import MfaConsole.Text.Pieces

/-! Form-encoded queries: the pairs of a query written as `key=value&key=value`, and read back. A blank is
    written as a plus sign and every octet outside letters, digits and `*-._` is escaped. -/

namespace MfaConsole
namespace Text
namespace Form

def keeps (b : UInt8) : Bool :=
  let c := Char.ofNat b.toNat
  b.toNat < 0x80 && (c.isAlphanum || c == '*' || c == '-' || c == '.' || c == '_')

def octet (b : UInt8) : List Char :=
  if keeps b then [Char.ofNat b.toNat] else if b = 0x20 then ['+'] else Percent.escape b

def encodeChars (cs : List Char) : List Char :=
  (Utf8.encode cs).flatMap octet

def pairChars (p : String × String) : List Char :=
  encodeChars p.1.toList ++ '=' :: encodeChars p.2.toList

/-- The query of the pairs, in their order. -/
def queryChars (ps : List (String × String)) : List Char :=
  joinWith ['&'] (ps.map pairChars)

/-- The query of the pairs, in their order. -/
def query (ps : List (String × String)) : String :=
  String.ofList (queryChars ps)

def decodeChars (cs : List Char) : List Char :=
  Utf8.decode (Percent.unescape ((Utf8.encode cs).map fun b => if b = 0x2B then 0x20 else b))

/-- One written pair; a piece without `=` is a key with an empty value. -/
def readPair (cs : List Char) : String × String :=
  let (key, value) := cutOrAll '=' cs
  (String.ofList (decodeChars key), String.ofList (decodeChars value))

/-- The pairs of a query; empty pieces count for nothing. -/
def readChars (cs : List Char) : List (String × String) :=
  ((pieces '&' cs).filter (· ≠ [])).map readPair

/-- The pairs of a query; empty pieces count for nothing. -/
def read (s : String) : List (String × String) :=
  readChars s.toList

/-- A URL with the query of the pairs after it; without pairs there is no question mark. -/
def withQuery (url : String) (ps : List (String × String)) : String :=
  if ps = [] then url else url ++ "?" ++ query ps

end Form
end Text
end MfaConsole
