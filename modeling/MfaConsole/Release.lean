/-! The suffix `?v=…` of asset and template URLs, which changes with each release so that caches are not reused
    across releases. Without a release there is a fresh token for every load of the console. -/

namespace MfaConsole

/-- What follows `?v=` in the URLs of assets. -/
structure Release where
  value : String
  deriving DecidableEq, Inhabited

namespace Release

def tokenDigit (n : Nat) : Char :=
  if n % 16 < 10 then Char.ofNat (48 + n % 16) else Char.ofNat (87 + n % 16)

/-- A token of lower-case hexadecimal digits for the numbers drawn. -/
def token (length : Nat) (draw : Nat → Nat) : String :=
  String.ofList ((List.range length).map fun i => tokenDigit (draw i))

/-- The named release, or a token where no release is named. -/
def ofName (name : String) (length : Nat) (draw : Nat → Nat) : Release :=
  ⟨if name = "" then token length draw else name⟩

def suffix (r : Release) : String := "?v=" ++ r.value

def decorate (r : Release) (url : String) : String := url ++ r.suffix

/-- The release in force once `candidate` is offered: the one installed first stays. -/
def install (installed : Option Release) (candidate : Release) : Release := installed.getD candidate

end Release
end MfaConsole
