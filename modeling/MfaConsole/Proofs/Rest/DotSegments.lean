import MfaConsole.Proofs.Rest.ResourcePaths
import MfaConsole.Proofs.Url.Dotless

/-! Which paths of resources stay when a reader of URLs takes the dots out of them. Escaping keeps texts from ending
    their segments, but a text that is dots is written as dots, and a backslash is written as it is: such texts lead
    away from what they name, all others do not. -/

namespace MfaConsole

/-! ### What is left in a segment -/

namespace Text

theorem Utf8.toNat_of_mem_encodeChar {b : UInt8} {c : Char} (ascii : b.toNat < 0x80)
    (h : b ∈ Utf8.encodeChar c) : c.toNat = b.toNat := by
  have same {n : Nat} (hn : n < 256) (hb : b = UInt8.ofNat n) : b.toNat = n := by rw [hb, Utf8.toNat_ofNat hn]
  have range := Utf8.scalar_range c
  simp only [Utf8.encodeChar] at h
  -- The octets of longer forms are not ASCII.
  split at h
  · exact (same (by omega) (List.mem_singleton.mp h)).symm
  · split at h
    · simp only [List.mem_cons, List.not_mem_nil, or_false] at h
      rcases h with h | h <;> have := same (by omega) h <;> omega
    · split at h
      · simp only [List.mem_cons, List.not_mem_nil, or_false] at h
        rcases h with h | h | h <;> have := same (by omega) h <;> omega
      · simp only [List.mem_cons, List.not_mem_nil, or_false] at h
        rcases h with h | h | h | h <;> have := same (by omega) h <;> omega

namespace Percent

theorem backslash_mem_segmentOctet {b : UInt8} (h : '\\' ∈ segmentOctet b) : b = 0x5C := by
  rw [segmentOctet] at h
  split at h
  · next kept =>
    simp only [segmentKeeps, Bool.and_eq_true, decide_eq_true_eq, and_assoc] at kept
    have value := toNat_ofNat_ascii (n := b.toNat) (by omega)
    rw [← List.mem_singleton.mp h] at value
    exact UInt8.toNat_inj.mp value.symm
  · rcases mem_escape h with h | h <;> exact absurd h (by decide)

/-- A segment holds a backslash exactly if its text does. -/
theorem backslash_mem_segmentChars {cs : List Char} : '\\' ∈ segmentChars cs ↔ '\\' ∈ cs := by
  constructor
  · intro h
    obtain ⟨b, hb, hs⟩ := List.mem_flatMap.mp h
    obtain ⟨c, hc, hb⟩ := List.mem_flatMap.mp hb
    obtain rfl := backslash_mem_segmentOctet hs
    have same : c = '\\' := Char.toNat_inj.mp (Utf8.toNat_of_mem_encodeChar (by decide) hb)
    exact same ▸ hc
  · intro h
    have octet : (0x5C : UInt8) ∈ Utf8.encode cs := List.mem_flatMap.mpr ⟨'\\', h, by decide⟩
    exact List.mem_flatMap.mpr ⟨0x5C, octet, by decide⟩

/-- A segment is dots exactly if its text is. -/
theorem isDots_segment_iff {s : String} : Url.isDots (segment s).toList = true ↔ s = "." ∨ s = ".." := by
  constructor
  · intro h
    have read := Url.decodeChars_of_isDots h
    rw [decodeChars_segment] at read
    exact read.imp (fun h => String.toList_inj.mp h) (fun h => String.toList_inj.mp h)
  · rintro (rfl | rfl) <;> decide +kernel

end Percent
end Text

namespace Rest

/-- A text that is not read as what it says where it is written as a segment: a dot, two dots, or with a backslash in
    it where the reader takes that for a slash. -/
def Misread (k : Url.Kind) (text : String) : Prop := text = "." ∨ text = ".." ∨ k ≠ .other ∧ '\\' ∈ text.toList

theorem isSlash_iff {k : Url.Kind} {c : Char} (h : Text.Percent.SegmentChar c) :
    k.isSlash c = true ↔ k ≠ .other ∧ c = '\\' := by
  simp [Url.Kind.isSlash, h.ne.1, and_comm]

theorem settled_segment_iff {k : Url.Kind} {text : String} :
    Url.Settled k (Text.Percent.segment text).toList ↔ ¬Misread k text := by
  have slashes : (∀ c ∈ (Text.Percent.segment text).toList, k.isSlash c = false) ↔
      ¬(k ≠ .other ∧ '\\' ∈ text.toList) := by
    rw [Text.Percent.segment, String.toList_ofList, ← Text.Percent.backslash_mem_segmentChars]
    constructor
    · rintro h ⟨reads, hm⟩
      exact absurd ((isSlash_iff (Text.Percent.segmentChar_of_mem hm)).mpr ⟨reads, rfl⟩) (by simp [h _ hm])
    · intro h c hc
      refine Bool.eq_false_iff.mpr fun slash => h ?_
      obtain ⟨reads, rfl⟩ := (isSlash_iff (Text.Percent.segmentChar_of_mem hc)).mp slash
      exact ⟨reads, hc⟩
  rw [Url.Settled, ← Bool.not_eq_true, Text.Percent.isDots_segment_iff, slashes, Misread, ← not_or, or_assoc]

theorem settled_of_plain {k : Url.Kind} {s : List Char} (h : ∀ c ∈ s, c = '-' ∨ c = '_' ∨ c.isAlphanum = true) :
    Url.Settled k s := by
  have other {c : Char} (hc : c ∈ s) : c ≠ '.' ∧ c ≠ '%' ∧ c ≠ '/' ∧ c ≠ '\\' := by
    rcases h c hc with rfl | rfl | plain
    · decide
    · decide
    · refine ⟨?_, ?_, ?_, ?_⟩ <;> rintro rfl <;> exact absurd plain (by decide)
  refine ⟨Bool.eq_false_iff.mpr fun dots => ?_, fun c hc => ?_⟩
  · rcases Url.mem_of_isDots dots with hm | hm
    · exact (other hm).1 rfl
    · exact (other hm).2.1 rfl
  · simp [Url.Kind.isSlash, other hc]

theorem settled_word {k : Url.Kind} {w : String} (hw : w ∈ Resource.words) : Url.Settled k w.toList :=
  settled_of_plain fun _ hc => Or.inr (Resource.mem_word hw hc)

theorem settled_decimal {k : Url.Kind} (n : Int) : Url.Settled k (Number.decimal n) := by
  refine settled_of_plain fun c hc => ?_
  rcases Number.mem_decimal hc with dash | digit
  · exact Or.inl dash
  · exact Or.inr (Or.inr (by simp [Char.isAlphanum, digit]))

/-- The path of a resource stays exactly if its base does and none of the texts that name the resource is misread. -/
theorem Resource.stays_path_iff {k : Url.Kind} {e : Endpoints} {r : Resource} :
    Url.Stays k (r.path e).toList ↔ Url.Stays k e.base.toList ∧ ∀ text ∈ r.texts, ¬Misread k text := by
  rw [toList_path_segments, Url.stays_append_iff slash_not_mem_segments]
  refine and_congr_right fun _ => ⟨fun h text ht => ?_, fun h s hs => ?_⟩
  · exact settled_segment_iff.mp (h _ (List.mem_map_of_mem (segment_mem_segments ht)))
  · obtain ⟨word, hw, rfl⟩ := List.mem_map.mp hs
    rcases mem_segments hw with fixed | ⟨text, ht, rfl⟩ | ⟨n, rfl⟩
    · exact settled_word fixed
    · exact settled_segment_iff.mpr (h text ht)
    · rw [Number.toList_toString]
      exact settled_decimal n

/-- Whatever kind of URL its reader takes it for, the path of a definition or of an association stays as it is when
    the dots are taken out, and so goes on naming what it named, exactly if that is so for the base, and neither the
    identifier nor the serial nor the application is misread. -/
theorem path_stays_iff (k : Url.Kind) (e : Endpoints) :
    (∀ identifier, Url.Stays k (e.server identifier).toList ↔
      Url.Stays k e.base.toList ∧ ¬Misread k identifier) ∧
    ∀ key, Url.Stays k (e.machineToken key).toList ↔
      Url.Stays k e.base.toList ∧ ¬Misread k key.serial ∧ ¬Misread k key.application := by
  refine ⟨fun identifier => ?_, fun key => ?_⟩
  · rw [show e.server identifier = (Resource.server identifier).path e from rfl, Resource.stays_path_iff]
    simp [Resource.texts]
  · rw [show e.machineToken key = (Resource.machineToken key).path e from rfl, Resource.stays_path_iff]
    simp [Resource.texts]

/-- Two dots are not blank, and yet what they identify becomes the root, and a key of them names another resource, to
    readers of every kind. -/
theorem exists_path_moved : ∃ identifier, Text.allBlank identifier = false ∧ ∃ e : Endpoints, ∀ k : Url.Kind,
    Url.Stays k e.base.toList ∧ Url.dotless k (e.server identifier).toList = "/".toList ∧
      Url.dotless k (e.machineToken ⟨identifier, "ssh", 1⟩).toList = "/machine/ssh/1".toList := by
  refine ⟨"..", by decide, .below "", fun k => ⟨rfl, ?_, ?_⟩⟩ <;> cases k <;> decide +kernel

end Rest
end MfaConsole
