import MfaConsole.Host.Site
import MfaConsole.Proofs.Number.Decimals

/-! Which language a request asks for: the tag of the first of the entries that are preferred most. Qualities are
    compared after they were rounded to 32 bits, which keeps their order, as no two of them are close. -/

namespace MfaConsole
namespace Locale
open Number Text

/-! ### Entries -/

/-- The tag of an entry and its parameters, without the blanks around them. -/
def parts (entry : List Char) : List (List Char) := (pieces ';' entry).map trimChars

def tagOf (entry : List Char) : List Char := (parts entry).headD []

/-- What follows `q=` in the parameters of an entry that begin with it. -/
def qualities (entry : List Char) : List (List Char) := (parts entry).tail.filterMap (after? ['q', '='])

/-- The first quality of an entry as an exact number, one if it has none. -/
def qualityAt (entry : List Char) : ℚ := ((qualities entry).head?.map exactly).getD 1

/-- A quality as it has to be written: a zero with up to three digits after a point, or a one with up to three
    zeros. -/
def isQuality : List Char → Bool
  | ['0'] | ['1'] => true
  | '0' :: '.' :: digits => digits.length ≤ 3 && digits.all Char.isDigit
  | '1' :: '.' :: zeros => zeros.length ≤ 3 && zeros.all (· == '0')
  | _ => false

/-- An entry that asks for a language of its own, and does not refuse it. -/
structure Acceptable (entry : List Char) : Prop where
  named : tagOf entry ≠ []
  notAny : tagOf entry ≠ anyTag
  wanted : 0 < qualityAt entry

/-- Of the acceptable entries, `entry` is the first one of those of greatest quality. -/
def Best (entries : List (List Char)) (entry : List Char) : Prop :=
  Acceptable entry ∧ ∃ before after, entries = before ++ entry :: after ∧
    (∀ e ∈ before, Acceptable e → qualityAt e < qualityAt entry) ∧
    ∀ e ∈ after, Acceptable e → qualityAt e ≤ qualityAt entry

/-- The tag that is preferred among the entries of a header: that of the best one, or none where none is
    acceptable. -/
inductive Prefers (entries : List (List Char)) : String → Prop where
  | best {entry : List Char} (best : Best entries entry) : Prefers entries (String.ofList (tagOf entry))
  | none (refused : ∀ e ∈ entries, ¬Acceptable e) : Prefers entries ""

/-! ### Qualities -/

/-- A 32-bit number is what a number of thousandths up to one is rounded to. -/
def Rounded (s : Single) (q : ℚ) : Prop :=
  ∃ (n : ℕ) (m : Magnitude), n ≤ 1000 ∧ q = n / 1000 ∧ s = .finite false m ∧ binary32.nearest? q = some m

namespace Rounded
variable {s t : Single} {p q : ℚ}

theorem exists_thousandths {n : ℕ} (h : n ≤ 1000) :
    ∃ m, binary32.nearest? (n / 1000) = some m ∧ |m.value - n / 1000| ≤ 1 / 2 ^ 24 :=
  exists_nearest?_binary32 (by positivity) ((div_le_one (by norm_num)).mpr (by exact_mod_cast h))

theorem abs_sub_le {n : ℕ} {m : Magnitude} (h : n ≤ 1000) (nearest : binary32.nearest? (n / 1000) = some m) :
    |m.value - n / 1000| ≤ 1 / 2 ^ 24 := by
  obtain ⟨_, same, off⟩ := exists_thousandths h
  cases nearest.symm.trans same
  exact off

theorem zero : Rounded (.finite false ⟨0, binary32.least⟩) 0 := ⟨0, _, by decide, by norm_num, rfl, rfl⟩

theorem one : Rounded .one 1 := ⟨1000, _, by decide, by norm_num, rfl, by decide⟩

/-- Two numbers of thousandths are further apart than what they are off when they are rounded. -/
theorem below_iff (hs : Rounded s p) (ht : Rounded t q) : s.below t = true ↔ p < q := by
  obtain ⟨i, a, hi, rfl, rfl, nearestA⟩ := hs
  obtain ⟨j, b, hj, rfl, rfl, nearestB⟩ := ht
  rw [Single.below]
  by_cases hij : i = j
  · subst hij
    cases nearestA.symm.trans nearestB
    rw [Magnitude.below_iff, iff_false_right (lt_irrefl _)]
    exact lt_irrefl _
  · refine Magnitude.below_iff_of_apart (abs_sub_le hi nearestA) (abs_sub_le hj nearestB) ?_
    have apart : (1 : ℚ) ≤ |(i : ℚ) - j| := by
      exact_mod_cast Int.one_le_abs (sub_ne_zero.mpr (Nat.cast_injective.ne hij))
    calc (2 : ℚ) * (1 / 2 ^ 24) < 1 / 1000 := by norm_num
      _ ≤ |(i : ℚ) - j| / 1000 := by gcongr
      _ = |(i : ℚ) / 1000 - j / 1000| := by rw [← sub_div, abs_div, abs_of_pos (by norm_num : (0 : ℚ) < 1000)]

theorem isPositive_iff (hs : Rounded s p) : s.isPositive = true ↔ 0 < p := by
  rw [← zero.below_iff hs]
  obtain ⟨-, m, -, -, rfl, -⟩ := hs
  have least : Magnitude.value ⟨0, binary32.least⟩ = 0 := by rw [Magnitude.value, Nat.cast_zero, zero_mul]
  rw [Single.below, Magnitude.below_iff, least, Magnitude.value_pos_iff, Single.isPositive]
  simp

end Rounded

theorem cut_of_isQuality {cs : List Char} (h : isQuality cs = true) :
    ∃ c fraction, cutOrAll '.' cs = ([c], fraction) ∧ c.isDigit = true ∧ fraction.all Char.isDigit = true ∧
      fraction.length ≤ 3 ∧ digitsValue (c :: fraction) ≤ 10 ^ fraction.length := by
  have cut {c : Char} (hc : '.' ∉ [c]) (fraction : List Char) : cutOrAll '.' (c :: '.' :: fraction) = ([c], fraction) :=
    cutOrAll_append hc fraction
  unfold isQuality at h
  split at h
  · exact ⟨'0', [], rfl, by decide, rfl, by decide, by decide⟩
  · exact ⟨'1', [], rfl, by decide, rfl, by decide, by decide⟩
  · next digits =>
    rw [Bool.and_eq_true, decide_eq_true_iff] at h
    refine ⟨'0', digits, cut (by decide) digits, by decide, h.2, h.1, ?_⟩
    rw [digitsValue_cons_zero]
    exact (digitsValue_lt h.2).le
  · next zeros =>
    rw [Bool.and_eq_true, decide_eq_true_iff, List.all_eq_true] at h
    have all : ∀ c ∈ zeros, c = '0' := fun c hc => by simpa using h.2 c hc
    have value := digitsValue_append_zeros ['1'] zeros.length
    rw [← List.eq_replicate_of_mem all, List.singleton_append] at value
    refine ⟨'1', zeros, cut (by decide) zeros, by decide, ?_, h.1, (value.trans (Nat.one_mul _)).le⟩
    exact List.all_eq_true.mpr fun c hc => by rw [all c hc]; decide
  · cases h

theorem exactly_of_cut {cs fraction : List Char} {c : Char} (cut : cutOrAll '.' cs = ([c], fraction))
    (short : fraction.length ≤ 3) :
    exactly cs = (digitsValue (c :: fraction) * 10 ^ (3 - fraction.length) : ℕ) / 1000 := by
  have scale : 10 ^ (3 - fraction.length) * 10 ^ fraction.length = 1000 := by
    rw [← Nat.pow_add, Nat.sub_add_cancel short]
  simp only [exactly, cut]
  rw [div_eq_div_iff (by positivity) (by norm_num)]
  exact_mod_cast by rw [Nat.mul_assoc, scale, List.singleton_append]

/-- A quality is read as what it stands for, rounded. -/
theorem rounded_ofChars? {cs : List Char} (h : isQuality cs = true) :
    ∃ s, Single.ofChars? cs = some s ∧ Rounded s (exactly cs) := by
  obtain ⟨c, fraction, cut, hc, digits, short, most⟩ := cut_of_isQuality h
  have read := Single.ofChars?_eq cut (by simp) (by simpa using hc) digits
  have least : digitsValue (c :: fraction) * 10 ^ (3 - fraction.length) ≤ 1000 := by
    calc digitsValue (c :: fraction) * 10 ^ (3 - fraction.length)
        ≤ 10 ^ fraction.length * 10 ^ (3 - fraction.length) := Nat.mul_le_mul_right _ most
      _ = 1000 := by rw [← Nat.pow_add, Nat.add_sub_of_le short]
  have value : exactly cs = digitsValue ([c] ++ fraction) * 10 ^ (-fraction.length : ℤ) := by
    simp only [exactly, cut, zpow_neg, zpow_natCast, div_eq_mul_inv]
  obtain ⟨m, nearest, -⟩ := Rounded.exists_thousandths least
  rw [← exactly_of_cut cut short] at nearest
  have finite : Single.ofDigits false ([c] ++ fraction) (-fraction.length) = .finite false m := by
    refine Single.ofDigits_eq false ?_ ?_ (value ▸ nearest)
    · rw [Single.leastPower]
      omega
    · rw [Single.mostPower, List.length_append, List.length_singleton]
      omega
  exact ⟨_, read, _, m, least, exactly_of_cut cut short, finite, nearest⟩

/-! ### Offers -/

theorem qualityOf_parts {entry : List Char} (h : ∀ q ∈ qualities entry, isQuality q = true) :
    Rounded (qualityOf (parts entry).tail) (qualityAt entry) := by
  rw [qualityOf, ← List.head?_filterMap, qualityAt]
  change Rounded (((qualities entry).head?.bind Single.ofChars?).getD .one) _
  cases first : (qualities entry).head? with
  | none => exact Rounded.one
  | some q =>
    obtain ⟨s, read, rounded⟩ := rounded_ofChars? (h q (List.mem_of_head? first))
    rw [Option.bind_some, read]
    exact rounded

/-- An acceptable entry makes an offer with its tag and its quality, and any other makes none. -/
theorem ofEntry?_cases {entry : List Char} (h : ∀ q ∈ qualities entry, isQuality q = true) :
    (Acceptable entry ∧ ∃ o, Offer.ofEntry? entry = some o ∧ o.tag = tagOf entry ∧
      Rounded o.quality (qualityAt entry)) ∨ ¬Acceptable entry ∧ Offer.ofEntry? entry = none := by
  obtain ⟨tag, parameters, hp⟩ : ∃ tag parameters, parts entry = tag :: parameters :=
    List.exists_cons_of_ne_nil (by simp [parts, pieces_ne_nil])
  have tagged : tagOf entry = tag := by rw [tagOf, hp, List.headD_cons]
  have rounded := qualityOf_parts h
  have wanted := rounded.isPositive_iff
  rw [hp, List.tail_cons] at rounded wanted
  rw [Offer.ofEntry?, ← parts, hp]
  dsimp only
  split
  · next refused =>
    refine Or.inr ⟨fun acceptable => ?_, rfl⟩
    rcases refused with empty | any | unwanted
    · exact acceptable.named (tagged.trans empty)
    · exact acceptable.notAny (tagged.trans any)
    · rw [wanted.mpr acceptable.wanted] at unwanted
      cases unwanted
  · next taken =>
    simp only [not_or, Bool.not_eq_true', Bool.not_eq_false] at taken
    obtain ⟨named, notAny, positive⟩ := taken
    exact Or.inl ⟨⟨tagged ▸ named, tagged ▸ notAny, wanted.mp positive⟩, _, rfl, tagged.symm, rounded⟩

/-! ### The best offer -/

section
variable {entries : List (List Char)} {entry best : List Char}

theorem Best.le (h : Best entries best) (member : entry ∈ entries) (acceptable : Acceptable entry) :
    qualityAt entry ≤ qualityAt best := by
  obtain ⟨-, before, after, rfl, earlier, later⟩ := h
  rcases List.mem_append.mp member with member | member
  · exact (earlier entry member acceptable).le
  · rcases List.mem_cons.mp member with rfl | member
    · exact le_rfl
    · exact later entry member acceptable

/-- An entry that is no better stays behind those before it. -/
theorem Best.concat (h : Best entries best) (notBetter : Acceptable entry → qualityAt entry ≤ qualityAt best) :
    Best (entries ++ [entry]) best := by
  obtain ⟨acceptable, before, after, rfl, earlier, later⟩ := h
  refine ⟨acceptable, before, after ++ [entry], by rw [List.append_assoc, List.cons_append], earlier, ?_⟩
  intro e member
  rcases List.mem_append.mp member with member | member
  · exact later e member
  · rw [List.mem_singleton.mp member]
    exact notBetter

theorem best_concat_self (acceptable : Acceptable entry)
    (better : ∀ e ∈ entries, Acceptable e → qualityAt e < qualityAt entry) : Best (entries ++ [entry]) entry :=
  ⟨acceptable, entries, [], rfl, better, fun _ member => absurd member List.not_mem_nil⟩

/-- The offer that stands after the entries so far: that of the best one, if any is acceptable. -/
inductive Leads (entries : List (List Char)) : Option Offer → Prop where
  | best {o : Offer} {entry : List Char} (best : Best entries entry) (tagged : o.tag = tagOf entry)
      (rounded : Rounded o.quality (qualityAt entry)) : Leads entries (some o)
  | none (refused : ∀ e ∈ entries, ¬Acceptable e) : Leads entries none

/-- One more entry leaves the best offer standing, or takes its place if it is better. -/
theorem Leads.concat {standing : Option Offer} (h : Leads entries standing)
    (written : ∀ q ∈ qualities entry, isQuality q = true) :
    Leads (entries ++ [entry]) ((Offer.ofEntry? entry).toList.foldl Offer.better standing) := by
  rcases ofEntry?_cases written with ⟨acceptable, o, offered, tagged, rounded⟩ | ⟨refused, nothing⟩
  · rw [offered, Option.toList_some, List.foldl_cons, List.foldl_nil]
    cases h with
    | none refused =>
      exact .best (best_concat_self acceptable fun e member other => absurd other (refused e member)) tagged rounded
    | @best leading leader best ledTag ledRounded =>
      rw [Offer.better]
      split
      · next above =>
        have above : qualityAt leader < qualityAt entry := (ledRounded.below_iff rounded).mp above
        exact .best (best_concat_self acceptable fun e member other => (best.le member other).trans_lt above) tagged
          rounded
      · next notAbove =>
        have notAbove : ¬qualityAt leader < qualityAt entry := fun above =>
          notAbove ((ledRounded.below_iff rounded).mpr above)
        exact .best (best.concat fun _ => not_lt.mp notAbove) ledTag ledRounded
  · rw [nothing, Option.toList_none, List.foldl_nil]
    cases h with
    | none others =>
      refine .none fun e member => ?_
      rcases List.mem_append.mp member with member | member
      · exact others e member
      · rwa [List.mem_singleton.mp member]
    | best best ledTag ledRounded =>
      exact .best (best.concat fun acceptable => absurd acceptable refused) ledTag ledRounded

theorem leads_foldl (written : ∀ e ∈ entries, ∀ q ∈ qualities e, isQuality q = true) :
    Leads entries ((entries.filterMap Offer.ofEntry?).foldl Offer.better none) := by
  induction entries using List.reverseRecOn with
  | nil => exact .none fun e member => absurd member List.not_mem_nil
  | append_singleton entries entry ih =>
    rw [List.forall_mem_append, List.forall_mem_singleton] at written
    have last : [entry].filterMap Offer.ofEntry? = (Offer.ofEntry? entry).toList := by
      cases h : Offer.ofEntry? entry <;> simp [h]
    rw [List.filterMap_append, List.foldl_append, last]
    exact (ih written.1).concat written.2

theorem Prefers.eq_empty_iff {tag : String} (h : Prefers entries tag) : tag = "" ↔ ∀ e ∈ entries, ¬Acceptable e := by
  cases h with
  | none refused => exact iff_of_true rfl refused
  | @best entry best =>
    refine iff_of_false (fun empty => best.1.named ?_) fun refused => ?_
    · rwa [← String.toList_inj, String.toList_ofList] at empty
    · obtain ⟨acceptable, before, after, rfl, -⟩ := best
      exact refused entry (by simp) acceptable

end

/-! ### The language of a request -/

/-- The entries of a header. -/
def entriesOf (value : List UInt8) : List (List Char) := pieces ',' (value.map fun b => Char.ofNat b.toNat)

/-- For every header of printable characters in which all qualities are written as they have to be, the language of
    the request is the tag of the first of the acceptable entries of greatest quality, with the qualities compared as
    exact numbers, and it is empty exactly if no entry is acceptable. -/
theorem requestLanguage_prefers {value : List UInt8} (more : List (List UInt8))
    (printable : ∀ b ∈ value, 0x20 ≤ b ∧ b ≤ 0x7E)
    (written : ∀ e ∈ entriesOf value, ∀ q ∈ qualities e, isQuality q = true) :
    Prefers (entriesOf value) (Host.requestLanguage (value :: more)) ∧
      (Host.requestLanguage (value :: more) = "" ↔ ∀ e ∈ entriesOf value, ¬Acceptable e) := by
  have readable : Host.Headers.text? value = some (value.map fun b => Char.ofNat b.toNat) := by
    rw [Host.Headers.text?, if_pos]
    exact List.all_eq_true.mpr fun b member => by simp [printable b member]
  have prefers : Prefers (entriesOf value) (Host.requestLanguage (value :: more)) := by
    rw [Host.requestLanguage, List.head?_cons, Option.bind_some, readable]
    dsimp only
    rw [preferred, offers, ← entriesOf]
    have leads := leads_foldl written
    generalize ((entriesOf value).filterMap Offer.ofEntry?).foldl Offer.better none = standing at leads
    cases leads with
    | none refused => exact .none refused
    | best best tagged _ =>
      rw [Option.elim_some, tagged]
      exact .best best
  exact ⟨prefers, prefers.eq_empty_iff⟩

/-- A header with a tag for any language, a tie, a parameter before a quality, a second quality and a refusal. -/
def tiedHeader : List UInt8 :=
  "*, fr;q=0.5,, de ; level=1 ;q=0.8, en;q=0.800;q=1, it;q=0".toList.map fun c => UInt8.ofNat c.toNat

theorem requestLanguage_prefers_tied :
    Host.requestLanguage [tiedHeader] = "de" ∧ Prefers (entriesOf tiedHeader) "de" := by
  have result : Host.requestLanguage [tiedHeader] = "de" := by decide +kernel
  have prefers := (@requestLanguage_prefers tiedHeader [] (by decide +kernel) (by decide +kernel)).1
  exact ⟨result, result ▸ prefers⟩

end Locale
end MfaConsole
