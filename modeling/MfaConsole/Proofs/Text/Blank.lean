import Mathlib.Data.List.DropRight
import MfaConsole.Text.Blank

/-! Trimming takes blanks from both ends of a text and nothing else, and a trimmed text has none left to take. -/

namespace MfaConsole
namespace Text

theorem mem_of_mem_trimChars {c : Char} {cs : List Char} (h : c ∈ trimChars cs) : c ∈ cs := by
  unfold trimChars dropEndWhile at h
  have inner := (List.dropWhile_suffix isBlank).subset (List.mem_reverse.mp h)
  exact (List.dropWhile_suffix isBlank).subset (List.mem_reverse.mp inner)

theorem trimChars_cons_blank {c : Char} (h : isBlank c = true) (cs : List Char) :
    trimChars (c :: cs) = trimChars cs := by
  unfold trimChars
  rw [List.dropWhile_cons_of_pos h]

/-- What trimming leaves begins with no blank. -/
theorem dropWhile_trimChars (cs : List Char) : (trimChars cs).dropWhile isBlank = trimChars cs := by
  have front : trimChars cs <+: cs.dropWhile isBlank := List.rdropWhile_prefix isBlank _
  cases ht : trimChars cs with
  | nil => rfl
  | cons c rest =>
    obtain ⟨more, whole⟩ := ht ▸ front
    have first := List.head?_dropWhile_not isBlank cs
    rw [← whole] at first
    have hc : isBlank c = false := by simpa using first
    exact List.dropWhile_cons_of_neg (by simp [hc])

theorem trimChars_trimChars (cs : List Char) : trimChars (trimChars cs) = trimChars cs := by
  have ends : dropEndWhile isBlank (trimChars cs) = trimChars cs := List.rdropWhile_idempotent isBlank _
  rw [trimChars, dropWhile_trimChars, ends]

theorem trim_ofList_trimChars (cs : List Char) :
    trim (String.ofList (trimChars cs)) = String.ofList (trimChars cs) := by
  unfold trim
  rw [String.toList_ofList, trimChars_trimChars]

end Text
end MfaConsole
