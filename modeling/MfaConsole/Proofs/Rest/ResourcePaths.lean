import MfaConsole.Proofs.Host.ResourceUrls

/-! The path of a resource as the segments that follow its base. Each segment is a fixed word, an escaped text or a
    number, and holds no character that a reader of URLs takes for anything else, so that the path gives back what it
    was made from: it names one definition of a server or one association of a token, and no other. -/

namespace MfaConsole

/-! ### Numbers -/

namespace Number

/-- The decimal form of a number. -/
def decimal (n : Int) : List Char := (if n < 0 then ['-'] else []) ++ Nat.toDigits 10 n.natAbs

theorem toList_toString (n : Int) : (toString n).toList = decimal n := by
  cases n with
  | ofNat m =>
    have unsigned : ¬Int.ofNat m < 0 := Int.not_lt.mpr (Int.natCast_nonneg m)
    rw [decimal, if_neg unsigned]
    exact Nat.toList_repr
  | negSucc m =>
    have written : toString (Int.negSucc m) = "-" ++ Nat.repr (m + 1) := rfl
    rw [decimal, if_pos (Int.negSucc_lt_zero m), written, String.toList_append, Nat.toList_repr]
    rfl

theorem isDigit_of_mem_digits {c : Char} {n : Nat} (h : c ∈ Nat.toDigits 10 n) : c.isDigit = true :=
  Nat.isDigit_of_mem_toDigits (by decide) (by decide) h

theorem mem_decimal {c : Char} {n : Int} (h : c ∈ decimal n) : c = '-' ∨ c.isDigit = true := by
  rcases List.mem_append.mp h with h | h
  · split at h
    · exact Or.inl (List.mem_singleton.mp h)
    · cases h
  · exact Or.inr (isDigit_of_mem_digits h)

theorem decimal_injective : Function.Injective decimal := by
  intro n m h
  have value {a b : Nat} (h : Nat.toDigits 10 a = Nat.toDigits 10 b) : a = b := by
    rw [← Nat.ofDigitChars_ten_toDigits (n := a), h, Nat.ofDigitChars_ten_toDigits]
  have signed {a b : Nat} (h : '-' :: Nat.toDigits 10 a = Nat.toDigits 10 b) : False :=
    absurd (isDigit_of_mem_digits (h ▸ List.mem_cons_self : '-' ∈ Nat.toDigits 10 b)) (by decide)
  rw [decimal, decimal] at h
  split at h <;> split at h
  · have := value (List.cons.inj h).2
    omega
  · exact (signed h).elim
  · exact (signed h.symm).elim
  · have := value h
    omega

end Number

/-! ### Segments -/

namespace Text.Percent

instance (c : Char) : Decidable (SegmentChar c) := inferInstanceAs (Decidable (_ ∧ _ ∧ _))

theorem segmentChar_of_mem_decimal {c : Char} {n : Int} (h : c ∈ Number.decimal n) : SegmentChar c := by
  rcases Number.mem_decimal h with rfl | h
  · decide
  · exact segmentChar_of_alphanum (by simp [Char.isAlphanum, h])

theorem SegmentChar.ne {c : Char} (h : SegmentChar c) : c ≠ '/' ∧ c ≠ '?' ∧ c ≠ '#' := by
  refine ⟨?_, ?_, ?_⟩ <;> rintro rfl <;> exact absurd h (by decide)

theorem decodeChars_segment (s : String) : decodeChars (segment s).toList = s.toList := by
  rw [segment, String.toList_ofList, decodeChars_segmentChars]

theorem segment_injective : Function.Injective segment := fun s t h => by
  rw [← String.toList_inj, ← decodeChars_segment s, h, decodeChars_segment]

end Text.Percent

namespace Rest
namespace Resource

/-- The segments that follow the base. -/
def segments : Resource → List String
  | .auth => ["auth"]
  | .servers => ["edumfaserver", ""]
  | .server identifier => ["edumfaserver", Text.Percent.segment identifier]
  | .serverTest => ["edumfaserver", "test_request"]
  | .machines => ["machine", ""]
  | .machineTokens => ["machine", "token"]
  | .machineToken key =>
    ["machine", "token", Text.Percent.segment key.serial, Text.Percent.segment key.application, toString key.mtid.toInt]
  | .machineTokenOptions => ["machine", "tokenoption"]
  | .applications => ["application", ""]
  | .clientTypes => ["client", ""]
  | .recover => ["recover"]
  | .recoverReset => ["recover", "reset"]

/-- The segments that are the same whatever names the resource. -/
def words : List String :=
  ["auth", "edumfaserver", "", "test_request", "machine", "token", "tokenoption", "application", "client", "recover",
    "reset"]

/-- The texts that name the resource, each written as a segment of its own. -/
def texts : Resource → List String
  | .server identifier => [identifier]
  | .machineToken key => [key.serial, key.application]
  | _ => []

theorem mem_segments {r : Resource} {s : String} (h : s ∈ r.segments) :
    s ∈ words ∨ (∃ text ∈ r.texts, s = Text.Percent.segment text) ∨ ∃ n : Int, s = toString n := by
  have word {ws : List String} (hw : s ∈ ws) (all : ∀ w ∈ ws, w ∈ words) :
      s ∈ words ∨ (∃ text ∈ r.texts, s = Text.Percent.segment text) ∨ ∃ n : Int, s = toString n := Or.inl (all s hw)
  cases r with
  | server identifier =>
    rcases List.mem_cons.mp h with rfl | h
    · exact Or.inl (by decide)
    · exact Or.inr (Or.inl ⟨identifier, List.mem_cons_self, List.mem_singleton.mp h⟩)
  | machineToken key =>
    rcases List.mem_append.mp (show s ∈ ["machine", "token"] ++ _ from h) with h | h
    · exact word h (by decide)
    · simp only [List.mem_cons, List.not_mem_nil, or_false] at h
      rcases h with rfl | rfl | rfl
      · exact Or.inr (Or.inl ⟨key.serial, List.mem_cons_self, rfl⟩)
      · exact Or.inr (Or.inl ⟨key.application, List.mem_cons_of_mem _ List.mem_cons_self, rfl⟩)
      · exact Or.inr (Or.inr ⟨_, rfl⟩)
  | _ => exact word h (by decide)

theorem segment_mem_segments {r : Resource} {text : String} (h : text ∈ r.texts) :
    Text.Percent.segment text ∈ r.segments := by
  cases r with
  | server identifier =>
    rw [List.mem_singleton.mp h]
    exact List.mem_cons_of_mem _ List.mem_cons_self
  | machineToken key =>
    simp only [texts, List.mem_cons, List.not_mem_nil, or_false] at h
    rcases h with rfl | rfl <;> simp [segments]
  | _ => cases h

theorem mem_word {w : String} (hw : w ∈ words) {c : Char} (hc : c ∈ w.toList) : c = '_' ∨ c.isAlphanum = true := by
  have all : (words.all fun w => w.toList.all fun c => c == '_' || c.isAlphanum) = true := by decide +kernel
  simp only [List.all_eq_true, Bool.or_eq_true, beq_iff_eq] at all
  exact all w hw c hc

theorem segmentChar_of_mem_segments {r : Resource} {s : String} {c : Char} (h : s ∈ r.segments) (hc : c ∈ s.toList) :
    Text.Percent.SegmentChar c := by
  rcases mem_segments h with h | ⟨text, -, rfl⟩ | ⟨n, rfl⟩
  · rcases mem_word h hc with rfl | plain
    · decide
    · exact Text.Percent.segmentChar_of_alphanum plain
  · rw [Text.Percent.segment, String.toList_ofList] at hc
    exact Text.Percent.segmentChar_of_mem hc
  · rw [Number.toList_toString] at hc
    exact Text.Percent.segmentChar_of_mem_decimal hc

theorem slash_not_mem_segments {r : Resource} : ∀ s ∈ r.segments.map String.toList, '/' ∉ s := fun s hs hm => by
  obtain ⟨word, hw, rfl⟩ := List.mem_map.mp hs
  exact (segmentChar_of_mem_segments hw hm).ne.1 rfl

theorem toList_path_segments (e : Endpoints) (r : Resource) :
    (r.path e).toList = e.base.toList ++ Url.pathOf (r.segments.map String.toList) := by
  have bare : (Endpoints.below "").base = "" := rfl
  rw [path_eq, String.toList_append]
  congr 1
  cases r with
  | server identifier => simp [path, segments, Endpoints.server, Url.pathOf, bare]
  | machineToken key => simp [path, segments, Endpoints.machineToken, Url.pathOf, bare]
  | _ => rfl

/-- The path without its base goes to pieces that are the segments, after an empty one. -/
theorem pieces_path (e : Endpoints) (r : Resource) : ∃ rest, Text.after? e.base.toList (r.path e).toList = some rest ∧
    Text.pieces '/' rest = [] :: r.segments.map String.toList :=
  ⟨_, by rw [toList_path_segments, Text.after?_append], Url.pieces_pathOf slash_not_mem_segments⟩

/-- Two resources below one base have the same path exactly if they have the same segments. -/
theorem path_eq_path_iff {e : Endpoints} {r r' : Resource} : r.path e = r'.path e ↔ r.segments = r'.segments := by
  constructor
  · intro h
    obtain ⟨rest, without, pieces⟩ := pieces_path e r
    obtain ⟨rest', without', pieces'⟩ := pieces_path e r'
    rw [h, without'] at without
    rw [← Option.some.inj without, pieces'] at pieces
    have spelled : Function.Injective String.toList := fun _ _ => String.toList_inj.mp
    exact List.map_injective_iff.mpr spelled (List.cons.inj pieces).2.symm
  · intro h
    rw [← String.toList_inj, toList_path_segments, toList_path_segments, h]

theorem server_injective (e : Endpoints) : Function.Injective e.server := fun identifier identifier' h => by
  have same := path_eq_path_iff.mp (show path e (.server identifier) = path e (.server identifier') from h)
  simp only [segments, List.cons.injEq, true_and, and_true] at same
  exact Text.Percent.segment_injective same

theorem machineToken_injective (e : Endpoints) : Function.Injective e.machineToken := fun key key' h => by
  have same := path_eq_path_iff.mp (show path e (.machineToken key) = path e (.machineToken key') from h)
  simp only [segments, List.cons.injEq, true_and, and_true] at same
  obtain ⟨serial, application, number⟩ := same
  rw [← String.toList_inj, Number.toList_toString, Number.toList_toString] at number
  have mtid := Int64.toInt_inj.mp (Number.decimal_injective number)
  cases key
  cases key'
  cases Text.Percent.segment_injective serial
  cases Text.Percent.segment_injective application
  cases mtid
  rfl

end Resource

/-- No character that ends a path or would have to be escaped in it. -/
def IsPlain (c : Char) : Prop := c ≠ '?' ∧ c ≠ '#' ∧ 0x20 < c.toNat ∧ c.toNat < 0x7F

/-- The path of a definition names its identifier alone and that of an association its key alone. Without its base the
    path of an association goes to pieces at its slashes: the two words that all have, the serial and the application,
    which are read back as they were, and the number in decimal; all characters of the pieces are plain. -/
theorem path_addresses_one (e : Endpoints) : Function.Injective e.machineToken ∧ Function.Injective e.server ∧
    ∀ key, ∃ rest serial application,
      Text.after? e.base.toList (e.machineToken key).toList = some rest ∧
      Text.pieces '/' rest =
        [[], "machine".toList, "token".toList, serial, application, Number.decimal key.mtid.toInt] ∧
      Text.Percent.decodeChars serial = key.serial.toList ∧
      Text.Percent.decodeChars application = key.application.toList ∧
      ∀ piece ∈ Text.pieces '/' rest, ∀ c ∈ piece, IsPlain c := by
  refine ⟨Resource.machineToken_injective e, Resource.server_injective e, fun key => ?_⟩
  obtain ⟨rest, without, pieces⟩ := Resource.pieces_path e (.machineToken key)
  refine ⟨rest, _, _, without, ?_, Text.Percent.decodeChars_segment _, Text.Percent.decodeChars_segment _, ?_⟩
  · rw [pieces, ← Number.toList_toString]
    rfl
  · intro piece hp c hc
    rw [pieces] at hp
    rcases List.mem_cons.mp hp with rfl | hp
    · cases hc
    · obtain ⟨s, hs, rfl⟩ := List.mem_map.mp hp
      have plain := Resource.segmentChar_of_mem_segments hs hc
      exact ⟨plain.ne.2.1, plain.ne.2.2, plain.1, plain.2.1⟩

end Rest
end MfaConsole
