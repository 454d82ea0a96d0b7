import MfaConsole.Text.Blank

/-! What the host hands to the console within the page: the release, the path below which everything is mounted,
    and the language. Each stands in a hidden field of its own. -/

namespace MfaConsole

/-- The path without blanks at its ends and slashes at its end; if anything is left it begins with a slash. -/
def normalizeInstance (raw : String) : String :=
  let path := Text.dropTrailing '/' (Text.trim raw)
  if path = "" then ""
  else if path.toList.head? = some '/' then path
  else "/" ++ path

/-- What the host hands to the console. -/
structure Bootstrap where
  release : String
  mount : String
  /-- The tag of the language, empty for the source language. -/
  language : String
  deriving DecidableEq, Inhabited

namespace Bootstrap

def releaseField : String := "EDUMFA_VERSION_NUMBER"

def mountField : String := "EDUMFA_INSTANCE_URL"

def languageField : String := "EDUMFA_LANGUAGE"

def fields (b : Bootstrap) : List (String × String) :=
  [(releaseField, b.release), (mountField, b.mount), (languageField, b.language)]

/-- What the hidden fields of a page hand to the console; a field that is missing is empty. -/
def ofFields (field : String → Option String) : Bootstrap :=
  { release := (field releaseField).getD "", mount := normalizeInstance ((field mountField).getD ""),
    language := (field languageField).getD "" }

end Bootstrap
end MfaConsole
