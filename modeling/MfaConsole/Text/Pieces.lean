/-! Cutting a list of characters at a separator: into all its pieces, or once at the first or the last place
    where the separator stands. -/

namespace MfaConsole
namespace Text

/-- The pieces between the separators; a text without a separator is its own only piece. -/
def pieces (sep : Char) : List Char → List (List Char)
  | [] => [[]]
  | c :: cs =>
    if c = sep then [] :: pieces sep cs
    else match pieces sep cs with
      | [] => [[c]]
      | p :: ps => (c :: p) :: ps

/-- What stands before and after the first separator. -/
def cutFirst? (sep : Char) : List Char → Option (List Char × List Char)
  | [] => none
  | c :: cs => if c = sep then some ([], cs) else (cutFirst? sep cs).map fun r => (c :: r.1, r.2)

/-- What stands before and after the last separator. -/
def cutLast? (sep : Char) : List Char → Option (List Char × List Char)
  | [] => none
  | c :: cs =>
    match cutLast? sep cs with
    | some r => some (c :: r.1, r.2)
    | none => if c = sep then some ([], cs) else none

/-- The text after its first separator, and the whole text before it; without a separator the rest is empty. -/
def cutOrAll (sep : Char) (cs : List Char) : List Char × List Char :=
  (cutFirst? sep cs).getD (cs, [])

/-- What follows `start`, if the text starts with it. -/
def after? : (start cs : List Char) → Option (List Char)
  | [], cs => some cs
  | _ :: _, [] => none
  | s :: ss, c :: cs => if s = c then after? ss cs else none

def occursIn (part : List Char) : List Char → Bool
  | [] => part == []
  | c :: cs => (after? part (c :: cs)).isSome || occursIn part cs

/-- The texts with `sep` between them. -/
def joinWith (sep : List Char) : List (List Char) → List Char
  | [] => []
  | [p] => p
  | p :: q :: ps => p ++ sep ++ joinWith sep (q :: ps)

theorem pieces_ne_nil (sep : Char) : ∀ cs : List Char, pieces sep cs ≠ []
  | [] => by simp [pieces]
  | c :: cs => by
    unfold pieces
    split
    · simp
    · split <;> simp

theorem after?_append (start cs : List Char) : after? start (start ++ cs) = some cs := by
  induction start with
  | nil => cases cs <;> rfl
  | cons s ss ih => simpa [after?] using ih

end Text
end MfaConsole
