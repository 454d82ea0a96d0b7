import MfaConsole.Json.Printer
import MfaConsole.Text.Blank
import MfaConsole.Text.Pieces
import MfaConsole.Wire.Token

/-! The options of a token as the text that is edited in its row, `key=value` pairs with commas between them, and what
    is sent when the row is saved. -/

namespace MfaConsole
namespace Wire
namespace OptionText

/-- The value of an option as text: a string as it is, anything else as compact JSON. -/
def valueChars : Json → List Char
  | .string s => s.toList
  | v => v.chars

/-- The options as text, in the order of their keys. -/
def format (options : KeyMap Json) : String :=
  String.ofList (Text.joinWith [',', ' '] (options.entries.map fun e => e.1.toList ++ '=' :: valueChars e.2))

/-- One pair; without an equals sign, or with a blank key, it is none. -/
def pair? (cs : List Char) : Option (String × String) := do
  let (key, value) ← Text.cutFirst? '=' cs
  let key := Text.trimChars key
  if key = [] then none else some (String.ofList key, String.ofList (Text.trimChars value))

/-- The options of a text. Pieces that are no pair count for nothing; of two pairs of one key the later counts. -/
def parse (s : String) : KeyMap String :=
  KeyMap.ofList ((Text.pieces ',' s.toList).filterMap pair?)

end OptionText

/-- What the row of a token sends when it is saved with a text in it. The machine is filled in later. -/
def OptionUpdate.ofRow (t : AttachedToken) (text : String) : OptionUpdate :=
  { serial := t.serial, application := t.application, machineId := none, resolver := none, mtid := some t.id,
    options := OptionText.parse text }

end Wire
end MfaConsole
