import MfaConsole.Host.ByteRange
import MfaConsole.Host.Date
import MfaConsole.Host.MediaType
import MfaConsole.Host.Message
import MfaConsole.Text.Percent

/-! Files that the host serves from a directory. Nothing above the directory is reached: a path with two dots as a
    segment names no file. -/

namespace MfaConsole
namespace Host

/-- A directory. -/
structure Directory where
  place : String
  isThere : Bool
  /-- When the files were written, in seconds since the beginning of 1970. -/
  written : Nat
  files : List (List String × ByteArray)

/-- What a path leads to. -/
inductive Entry where
  | file (bytes : ByteArray)
  | directory
  | missing
  | refused

namespace Directory

/-- A directory that does not exist. -/
def absent (place : String) : Directory := { place, isThere := false, written := 0, files := [] }

/-- The segments of a path that are there to be looked up: empty ones and single dots count for nothing. -/
def lookedUp (segments : List (List Char)) : List (List Char) :=
  segments.filter fun s => s ≠ [] && s ≠ ['.']

/-- The directory of the files; each name is a path. -/
def ofFiles (place : String) (written : Nat) (files : List (String × ByteArray)) : Directory :=
  { place, isThere := true, written,
    files := files.map fun f => ((lookedUp (Text.pieces '/' f.1.toList)).map String.ofList, f.2) }

/-- The text that an escaped path stands for, if its octets are text. -/
def decode? (path : List Char) : Option (List Char) :=
  let octets := Text.Percent.unescape (Text.Utf8.encode path)
  let decoded := Text.Utf8.decode octets
  if Text.Utf8.encode decoded = octets then some decoded else none

/-- The segments that a path names below the directory, if it stays below it. -/
def segments? (path : List Char) : Option (List String) :=
  match decode? (path.dropWhile (· == '/')) with
  | none => none
  | some decoded =>
    let segments := lookedUp (Text.pieces '/' decoded)
    if decoded.head? = some '/' ∨ ['.', '.'] ∈ segments then none else some (segments.map String.ofList)

variable (d : Directory)

def file? (segments : List String) : Option ByteArray := d.files.lookup segments

def holds (segments : List String) : Bool :=
  (d.isThere && segments = []) ||
    d.files.any fun f => segments.isPrefixOf f.1 && segments.length < f.1.length

/-- The most octets of a name. -/
def longestName : Nat := 255

/-- The most octets of a whole path. -/
def longestPath : Nat := 4095

/-- How long the whole path of a file is. -/
def pathLength (segments : List String) : Nat :=
  segments.foldl (fun n s => n + s.utf8ByteSize + 1) d.place.utf8ByteSize

/-- What a path below a directory leads to. The names are looked up one by one, so that only a name for which there
    is a directory to look in can be too long. -/
def lookUp : (walked segments : List String) → Entry
  | walked, [] => (d.file? walked).elim (if d.holds walked then .directory else .missing) .file
  | walked, s :: rest =>
    if !d.holds walked then .missing
    else if longestName < s.utf8ByteSize then .refused
    else lookUp (walked ++ [s]) rest

def entry (segments : List String) : Entry :=
  if longestPath < d.pathLength segments then .refused else d.lookUp [] segments

def dateOf? (hs : Headers) (name : String) : Option Date :=
  ((hs.first? name).bind Headers.text?).bind Date.ofText?

/-- The answer where a request is for a file only if it has changed, or has not changed, since a date. -/
def unmet? (hs : Headers) : Option Response :=
  if (dateOf? hs "if-unmodified-since").any fun since => since.seconds < d.written then some (.bare 412)
  else if (dateOf? hs "if-modified-since").any fun since => d.written ≤ since.seconds then some (.bare 304)
  else none

def severalText : String := "Cannot serve multipart range requests"

/-- The answer with a file of a type, or with the part of it that is asked for. Of a directory in the place of a
    file nothing can be read, though it has a size. -/
def fileResponse (hs : Headers) (type : String) (size : Nat) (bytes : ByteArray) : Response :=
  let answer (status : Nat) (bytes : ByteArray) : Response :=
    { Response.bare status with contentType := some type.toUTF8.toList, content := .octets bytes }
  match ByteRange.select size ((hs.first? "range").bind Headers.text?) with
  | .whole => answer 200 bytes
  | .part first last => answer 206 (bytes.extract first (last + 1))
  | .several => answer 416 severalText.toUTF8
  | .notThere => answer 416 ByteArray.empty

def ownSize : Nat := 4096

/-- The file of a path, or the answer that there is none. A path with a null in it is noticed only when a file is
    to be read. -/
def fetch (q : Request) (segments : List String) : Response :=
  if segments.any fun s => s.toList.contains '\x00' then .bare (if q.method = "HEAD" then 500 else 404)
  else
    let answer (size : Nat) (bytes : ByteArray) : Response :=
      (d.unmet? q.headers).getD (fileResponse q.headers (typeOf (segments.getLast?.getD "")) size bytes)
    match d.entry segments with
    | .file bytes => answer bytes.size bytes
    | .directory => answer ownSize ByteArray.empty
    | .missing => .bare 404
    | .refused => .bare 500

def isDirectory (segments : List String) : Bool :=
  match d.entry segments with
  | .directory => true
  | _ => false

/-- The answer to a request for a path below the directory. For a directory its index is answered; a path of a
    directory without a slash at its end leads to the one with it. -/
def respond (q : Request) (path : String) : Response :=
  if !Response.isReading q.method then .notAllowed
  else match segments? path.toList with
    | none => .bare 404
    | some segments =>
      if !d.isDirectory segments then d.fetch q segments
      else if path.toList.getLast? = some '/' then d.fetch q (segments ++ ["index.html"])
      else { Response.bare 307 with location := some (path ++ "/") }

end Directory
end Host
end MfaConsole
