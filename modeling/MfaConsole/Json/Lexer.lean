import MfaConsole.Json.Basic
import MfaConsole.Number.Digits

/-! The tokens of a JSON text. The characters are read one at a time; a literal ends where a character stands
    that no literal holds. -/

namespace MfaConsole
namespace Json

/-- A token: a mark such as a bracket or comma, a string, or another value without parts. -/
inductive Token where
  | mark (c : Char)
  | text (s : String)
  | plain (v : Json)

/-- Blanks of the format: space, tab, line feed and carriage return. -/
def isSpace (c : Char) : Bool :=
  c == ' ' || c == '\t' || c == '\n' || c == '\r'

def isMark (c : Char) : Bool :=
  c == '[' || c == ']' || c == '\x7b' || c == '\x7d' || c == ':' || c == ','

def isPlain (c : Char) : Bool :=
  c.isAlphanum || c == '-' || c == '+' || c == '.'

/-- A whole number where it fits 64 bits, signed below zero; a double otherwise, and for minus zero. -/
def wholeNumber? (negative : Bool) (whole : List Char) : Option Json :=
  let n := Number.digitsValue whole
  if negative then
    if 0 < n ∧ n ≤ Number.twoTo 63 then some (.integer (-n))
    else (Number.Double.ofLiteral? whole [] 0).map fun m => .double ⟨true, m⟩
  else if n < UInt64.size then some (.integer n)
  else (Number.Double.ofLiteral? whole [] 0).map fun m => .double ⟨false, m⟩

def fractional? (negative : Bool) (whole fraction exponent : List Char) : Option Json := do
  let e ← Number.exponent? exponent
  let m ← Number.Double.ofLiteral? whole fraction e
  pure (.double ⟨negative, m⟩)

/-- A number: digits without a leading zero, then perhaps a point with digits, then perhaps an exponent. -/
def number? (cs : List Char) : Option Json :=
  let (negative, cs) := match cs with
    | '-' :: rest => (true, rest)
    | rest => (false, rest)
  let whole := cs.takeWhile Char.isDigit
  if whole = [] ∨ (whole.head? = some '0' ∧ whole.length ≠ 1) then none
  else match cs.dropWhile Char.isDigit with
    | [] => wholeNumber? negative whole
    | '.' :: rest =>
      let fraction := rest.takeWhile Char.isDigit
      if fraction = [] then none else fractional? negative whole fraction (rest.dropWhile Char.isDigit)
    | rest => fractional? negative whole [] rest

def plain? (cs : List Char) : Option Json :=
  if cs = "null".toList then some .null
  else if cs = "true".toList then some (.bool true)
  else if cs = "false".toList then some (.bool false)
  else number? cs

/-- What is being read: nothing, a literal, or a string with the characters before, perhaps after the first half
    of a surrogate pair, and perhaps within an escape with so many hexadecimal digits. Characters stand in
    reverse order. -/
inductive Scan where
  | between
  | literal (before : List Char)
  | quoted (before : List Char) (half : Option Nat)
  | escaped (before : List Char) (half : Option Nat)
  | unicode (before : List Char) (half : Option Nat) (digits value : Nat)

def shortEscape? : Char → Option Char
  | '"' => some '"'
  | '\\' => some '\\'
  | '/' => some '/'
  | 'b' => some '\x08'
  | 'f' => some '\x0c'
  | 'n' => some '\n'
  | 'r' => some '\r'
  | 't' => some '\t'
  | _ => none

def hexDigit? (c : Char) : Option Nat :=
  if c.isDigit then some (c.toNat - 48)
  else if 'a' ≤ c ∧ c ≤ 'f' then some (c.toNat - 87)
  else if 'A' ≤ c ∧ c ≤ 'F' then some (c.toNat - 55)
  else none

/-- What four hexadecimal digits mean within a string: a character, or one half of a surrogate pair, of which the
    second has to follow the first at once. -/
def unicodeEscape? (before : List Char) (half : Option Nat) (value : Nat) : Option Scan :=
  match half with
  | some high =>
    if 0xDC00 ≤ value ∧ value < 0xE000 then
      some (.quoted (Char.ofNat (0x10000 + (high - 0xD800) * 1024 + (value - 0xDC00)) :: before) none)
    else none
  | none =>
    if 0xD800 ≤ value ∧ value < 0xDC00 then some (.quoted before (some value))
    else if 0xDC00 ≤ value ∧ value < 0xE000 then none
    else some (.quoted (Char.ofNat value :: before) none)

def between? (c : Char) : Option (List Token × Scan) :=
  if isSpace c then some ([], .between)
  else if isMark c then some ([.mark c], .between)
  else if c = '"' then some ([], .quoted [] none)
  else if isPlain c then some ([], .literal [c])
  else none

/-- One character: the tokens it ends and what is read after it; none where no text goes on so. -/
def scan? : Scan → Char → Option (List Token × Scan)
  | .between, c => between? c
  | .literal before, c =>
    if isPlain c then some ([], .literal (c :: before))
    else do
      let v ← plain? before.reverse
      let (tokens, next) ← between? c
      pure (.plain v :: tokens, next)
  | .quoted before half, c =>
    if c = '\\' then some ([], .escaped before half)
    else if half.isSome then none
    else if c = '"' then some ([.text (String.ofList before.reverse)], .between)
    else if c.toNat < 0x20 then none
    else some ([], .quoted (c :: before) none)
  | .escaped before half, c =>
    if c = 'u' then some ([], .unicode before half 0 0)
    else if half.isSome then none
    else (shortEscape? c).map fun e => ([], .quoted (e :: before) none)
  | .unicode before half digits value, c => do
    let d ← hexDigit? c
    let value := value * 16 + d
    if digits < 3 then pure ([], .unicode before half (digits + 1) value)
    else pure ([], ← unicodeEscape? before half value)

/-- The tokens of the characters, read from `state` on. -/
def tokensFrom? : Scan → List Char → Option (List Token)
  | .between, [] => some []
  | .literal before, [] => (plain? before.reverse).map fun v => [.plain v]
  | _, [] => none
  | state, c :: cs => do
    let (tokens, next) ← scan? state c
    pure (tokens ++ (← tokensFrom? next cs))

def tokens? (s : String) : Option (List Token) :=
  tokensFrom? .between s.toList

end Json
end MfaConsole
