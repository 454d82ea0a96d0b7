import Mathlib.Tactic.MkIffOfInductiveProp
import MfaConsole.Wire.OptionText
import MfaConsole.Proofs.KeyMap
import MfaConsole.Proofs.Text.Blank
import MfaConsole.Proofs.Text.Pieces

/-! Which options come back from their text. The text has no escapes, and reading it trims every key and value, cuts at
    every comma and skips what is no pair. So a pair comes back exactly if writing it put nothing into the text that
    reading takes for something else, and what was read from a text comes back always. -/

namespace MfaConsole
namespace Wire
namespace OptionText

/-- A pair that its text does not misrepresent. -/
@[mk_iff] structure IsPlain (e : String × String) : Prop where
  key_ne : e.1 ≠ ""
  key_trimmed : Text.trim e.1 = e.1
  comma_key : ',' ∉ e.1.toList
  equals_key : '=' ∉ e.1.toList
  value_trimmed : Text.trim e.2 = e.2
  comma_value : ',' ∉ e.2.toList

instance : DecidablePred IsPlain := fun e => decidable_of_iff _ (isPlain_iff e).symm

def pairText (e : String × String) : List Char := e.1.toList ++ '=' :: e.2.toList

theorem toList_format (options : KeyMap String) : (format (options.mapValues .string)).toList =
    Text.joinWith [',', ' '] (options.entries.map pairText) := by
  unfold format KeyMap.mapValues
  rw [String.toList_ofList, List.map_map]
  rfl

/-! ### One pair -/

/-- A piece of text stands for a pair: the key before its first equals sign and the value after that, both without the
    blanks around them. -/
def StandsFor (piece : List Char) (e : String × String) : Prop :=
  ∃ key value, piece = key ++ '=' :: value ∧ '=' ∉ key ∧ e.1 ≠ "" ∧ e.1 = Text.trim (String.ofList key) ∧
    e.2 = Text.trim (String.ofList value)

theorem pair?_eq_some_iff {piece : List Char} {e : String × String} : pair? piece = some e ↔ StandsFor piece e := by
  have trim (cs : List Char) : Text.trim (String.ofList cs) = String.ofList (Text.trimChars cs) := by
    rw [Text.trim, String.toList_ofList]
  constructor
  · intro h
    unfold pair? at h
    obtain ⟨⟨key, value⟩, cut, h⟩ := Option.bind_eq_some_iff.mp h
    dsimp only at h
    split at h
    · cases h
    · next given =>
      cases h
      refine ⟨key, value, Text.eq_append_of_cutFirst? cut, Text.not_mem_of_cutFirst? cut, ?_, (trim key).symm,
        (trim value).symm⟩
      simpa using given
  · rintro ⟨key, value, rfl, equals, given, hkey, hvalue⟩
    rw [trim] at hkey hvalue
    have given' : Text.trimChars key ≠ [] := fun blank => given (by rw [hkey, blank])
    unfold pair?
    rw [Text.cutFirst?_append value equals]
    simp [given', ← hkey, ← hvalue]

/-! ### Plain options come back -/

theorem pair?_blank (cs : List Char) : pair? (' ' :: cs) = pair? cs := by
  have blank : Text.isBlank ' ' = true := by decide
  have cut : Text.cutFirst? '=' (' ' :: cs) = (Text.cutFirst? '=' cs).map fun r => (' ' :: r.1, r.2) := by
    rw [Text.cutFirst?, if_neg (by decide)]
  unfold pair?
  rw [cut]
  cases Text.cutFirst? '=' cs with
  | none => rfl
  | some r => simp [Text.trimChars_cons_blank blank]

theorem pair?_pairText {e : String × String} (h : IsPlain e) : pair? (pairText e) = some e := by
  refine pair?_eq_some_iff.mpr ⟨e.1.toList, e.2.toList, rfl, h.equals_key, h.key_ne, ?_, ?_⟩
  · rw [String.ofList_toList, h.key_trimmed]
  · rw [String.ofList_toList, h.value_trimmed]

theorem comma_not_mem_pairText {e : String × String} (h : IsPlain e) : ',' ∉ pairText e := by
  simp [pairText, h.comma_key, h.comma_value]

theorem parse_format {options : KeyMap String} (h : ∀ e ∈ options.entries, IsPlain e) :
    parse (format (options.mapValues .string)) = options := by
  have read : (Text.pieces ',' (format (options.mapValues .string)).toList).filterMap pair? = options.entries := by
    rw [toList_format]
    cases hes : options.entries with
    | nil => rfl
    | cons e es =>
      rw [hes] at h
      have bare : ∀ q ∈ pairText e :: es.map pairText, ',' ∉ q := fun q hq => by
        obtain ⟨x, hx, rfl⟩ := List.mem_map.mp (List.map_cons ▸ hq : q ∈ (e :: es).map pairText)
        exact comma_not_mem_pairText (h x hx)
      -- No blank stands before the first pair; before every other one stands that of the separator.
      have blank : ',' ∉ [' '] := by decide
      rw [List.map_cons, Text.pieces_joinWith_padded blank _ bare, List.filterMap_cons,
        pair?_pairText (h e List.mem_cons_self), List.map_map, List.filterMap_map]
      refine congrArg (e :: ·) ?_
      have each : ∀ x ∈ es, (pair? ∘ (fun cs => [' '] ++ cs) ∘ pairText) x = some x := fun x hx =>
        (pair?_blank (pairText x)).trans (pair?_pairText (h x (List.mem_cons_of_mem _ hx)))
      rw [List.filterMap_congr each, List.filterMap_some]
  rw [parse, read, KeyMap.ofList_entries]

/-! ### What is read is plain -/

theorem isPlain_of_pair? {piece : List Char} {e : String × String} (comma : ',' ∉ piece) (h : pair? piece = some e) :
    IsPlain e := by
  obtain ⟨key, value, rfl, equals, given, hkey, hvalue⟩ := pair?_eq_some_iff.mp h
  rw [List.mem_append, List.mem_cons, not_or, not_or] at comma
  obtain ⟨commaKey, -, commaValue⟩ := comma
  have outside {c : Char} {cs : List Char} (hc : c ∉ cs) : c ∉ (Text.trim (String.ofList cs)).toList := by
    rw [Text.trim, String.toList_ofList, String.toList_ofList]
    exact fun hm => hc (Text.mem_of_mem_trimChars hm)
  obtain ⟨k, v⟩ := e
  subst hkey hvalue
  exact ⟨given, Text.trim_ofList_trimChars _, outside commaKey, outside equals, Text.trim_ofList_trimChars _,
    outside commaValue⟩

theorem isPlain_of_mem_parse {s : String} {e : String × String} (h : e ∈ (parse s).entries) : IsPlain e := by
  obtain ⟨cs, hcs, he⟩ := List.mem_filterMap.mp (KeyMap.mem_of_mem_entries_ofList h)
  exact isPlain_of_pair? (Text.not_mem_of_mem_pieces hcs) he

/-- Options of texts come back from their text exactly if all of them are plain. -/
theorem parse_format_eq_iff (options : KeyMap String) :
    parse (format (options.mapValues .string)) = options ↔ ∀ e ∈ options.entries, IsPlain e := by
  refine ⟨fun h e he => ?_, parse_format⟩
  rw [← h] at he
  exact isPlain_of_mem_parse he

/-! ### Which pair counts -/

/-- What is read under a key is the value of the last piece that stands for a pair of that key. -/
theorem get?_parse_eq_some_iff {text key value : String} : (parse text).get? key = some value ↔
    ∃ before piece after, Text.pieces ',' text.toList = before ++ piece :: after ∧ StandsFor piece (key, value) ∧
      ∀ later ∈ after, ∀ v, ¬StandsFor later (key, v) := by
  simp only [← pair?_eq_some_iff]
  rw [parse, KeyMap.get?_ofList, ← List.filterMap_reverse, List.lookup_eq_some_iff]
  constructor
  · rintro ⟨_, _, found, others⟩
    obtain ⟨after, rest, pieces, rfl, hrest⟩ := List.filterMap_eq_append_iff.mp found
    obtain ⟨skipped, piece, before, rfl, noPair, here, -⟩ := List.filterMap_eq_cons_iff.mp hrest
    refine ⟨before.reverse, piece, (after ++ skipped).reverse, ?_, here, fun later hl v hv => ?_⟩
    · rw [← List.reverse_reverse (Text.pieces ',' text.toList), pieces]
      simp
    · rcases List.mem_append.mp (List.mem_reverse.mp hl) with hl | hl
      · have other := others (key, v) (List.mem_filterMap.mpr ⟨later, hl, hv⟩)
        simp at other
      · rw [noPair later hl] at hv
        cases hv
  · rintro ⟨before, piece, after, pieces, here, last⟩
    refine ⟨after.reverse.filterMap pair?, before.reverse.filterMap pair?, ?_, fun e he => ?_⟩
    · rw [pieces, List.reverse_append, List.reverse_cons, List.append_assoc, List.singleton_append,
        List.filterMap_append, List.filterMap_cons, here]
    · obtain ⟨later, hl, hv⟩ := List.mem_filterMap.mp he
      refine bne_iff_ne.mpr fun same => last later (List.mem_reverse.mp hl) e.2 ?_
      rw [hv, same]

/-- What is read from any text, written down and read again, is the same. All that is read is plain, and of several
    pairs of one key the last one counts. -/
theorem parse_settles (text : String) :
    parse (format ((parse text).mapValues .string)) = parse text ∧ (∀ e ∈ (parse text).entries, IsPlain e) ∧
      ∀ key value, (parse text).get? key = some value ↔
        ∃ before piece after, Text.pieces ',' text.toList = before ++ piece :: after ∧ StandsFor piece (key, value) ∧
          ∀ later ∈ after, ∀ v, ¬StandsFor later (key, v) :=
  ⟨parse_format fun _ => isPlain_of_mem_parse, fun _ => isPlain_of_mem_parse, fun _ _ => get?_parse_eq_some_iff⟩

-- Stray commas, blanks and pieces without a key count for nothing, and the text shown next is in its final form.
example : format ((parse " b = 2,, a=1=1 , x, =y, b=3").mapValues .string) = "a=1=1, b=3" := by
  decide

end OptionText
end Wire
end MfaConsole
