import MfaConsole.Json.Parser
import MfaConsole.Locale.Table
import MfaConsole.Text.Pieces
import MfaConsole.Wire.Reader

/-! The catalog of one language. A message without a wording in it stands for itself. -/

namespace MfaConsole
namespace Locale

def sourceLanguage : String := "en"

/-- The wordings of one language, by message. -/
structure Catalog where
  language : String
  texts : KeyMap String

abbrev Table := KeyMap (KeyMap String)

/-- The part of a language tag before its first hyphen or underscore. -/
def primaryTag (tag : String) : String :=
  String.ofList (tag.toList.takeWhile fun c => c != '-' && c != '_')

namespace Catalog

def source : Catalog := ⟨sourceLanguage, KeyMap.empty⟩

/-- The catalog of a language: that of the whole tag if there is one, else that of its first part, else the
    source catalog. -/
def pick (table : Table) (language : String) : Catalog :=
  match table.get? language with
  | some texts => ⟨language, texts⟩
  | none =>
    match table.get? (primaryTag language) with
    | some texts => ⟨primaryTag language, texts⟩
    | none => source

def table? (text : String) : Option Table :=
  (Json.parseWritten? Json.nestingLimit text).bind (Wire.mapOf (Wire.mapOf Wire.text))

def ofTable? (text language : String) : Option Catalog :=
  (table? text).map fun t => pick t language

def own (language : String) : Catalog :=
  pick (KeyMap.ofList (ownTable.map fun e => (e.1, KeyMap.ofList e.2))) language

/-- A message in the words of the language; an empty wording counts as none. -/
def translate (c : Catalog) (message : String) : String :=
  match c.texts.get? message with
  | some t => if t = "" then message else t
  | none => message

end Catalog
end Locale
end MfaConsole
