import MfaConsole.Console.Basic
import MfaConsole.Proofs.Host.ResourceUrls

/-! The mount path on its way from the configuration to the console. The host brings it into its form once and the
    console once more. Both mean the same path exactly if the first time leaves nothing for the second to do. -/

namespace MfaConsole

/-! ### A slash at the beginning -/

namespace MountPath

/-- A path with a slash before it, unless it is empty or begins with one. -/
def rooted (path : List Char) : List Char :=
  if path = [] ∨ path.head? = some '/' then path else '/' :: path

theorem head_rooted {path : List Char} {c : Char} (h : (rooted path).head? = some c) : c = '/' := by
  unfold rooted at h
  split at h
  · next bare =>
    rcases bare with rfl | slash
    · cases h
    · exact Option.some.inj (h.symm.trans slash)
  · exact (Option.some.inj h).symm

theorem getLast?_rooted (path : List Char) : (rooted path).getLast? = path.getLast? := by
  unfold rooted
  split
  · rfl
  · next given =>
    obtain ⟨front, last, rfl⟩ := (List.eq_nil_or_concat' path).resolve_left fun nothing => given (Or.inl nothing)
    rw [← List.cons_append, List.getLast?_concat, List.getLast?_concat]

theorem rooted_of_prefix {path whole : List Char} (h : path <+: whole) (slash : whole.head? = some '/') :
    rooted path = path := by
  refine if_pos ?_
  cases path with
  | nil => exact Or.inl rfl
  | cons c rest =>
    obtain ⟨more, rfl⟩ := h
    exact Or.inr slash

/-- Where a path begins with a slash, only the blanks at its end go. -/
theorem trimChars_of_slash {path : List Char} (slash : path.head? = some '/') :
    Text.trimChars path = path.rdropWhile Text.isBlank := by
  obtain ⟨rest, rfl⟩ := List.head?_eq_some_iff.mp slash
  rw [Text.trimChars, List.dropWhile_cons_of_neg (by decide)]
  rfl

end MountPath

open MountPath

/-! ### The form of a mount path -/

/-- A path that is empty or begins with a slash, and ends neither in a slash nor in a blank. -/
structure IsMountPath (path : String) : Prop where
  begins : ∀ c ∈ path.toList.head?, c = '/'
  ends : ∀ c ∈ path.toList.getLast?, c ≠ '/' ∧ Text.isBlank c = false

theorem toList_normalizeInstance (raw : String) :
    (normalizeInstance raw).toList = rooted ((Text.trimChars raw.toList).rdropWhile (· == '/')) := by
  have path : (Text.dropTrailing '/' (Text.trim raw)).toList = (Text.trimChars raw.toList).rdropWhile (· == '/') := by
    rw [Text.toList_dropTrailing, Text.trim, String.toList_ofList]
  rw [normalizeInstance, rooted, ← path]
  by_cases nothing : Text.dropTrailing '/' (Text.trim raw) = ""
  · simp [nothing]
  · by_cases slash : (Text.dropTrailing '/' (Text.trim raw)).toList.head? = some '/'
    · simp [nothing, slash]
    · simp [nothing, slash]

theorem slash_of_begins {path front : List Char} {last : Char} (begins : ∀ c ∈ path.head?, c = '/')
    (whole : path = front ++ [last]) : path.head? = some '/' := by
  cases h : path.head? with
  | none => simp [List.head?_eq_none_iff.mp h] at whole
  | some c => rw [begins c h]

theorem normalizeInstance_of_isMountPath {path : String} (h : IsMountPath path) : normalizeInstance path = path := by
  rw [← String.toList_inj, toList_normalizeInstance]
  rcases List.eq_nil_or_concat' path.toList with nothing | ⟨front, last, whole⟩
  · rw [nothing]
    rfl
  · have slash := slash_of_begins h.begins whole
    obtain ⟨noSlash, noBlank⟩ := h.ends last (by simp [whole])
    have kept (p : Char → Bool) (hp : p last = false) : path.toList.rdropWhile p = path.toList := by
      rw [whole]
      exact List.rdropWhile_concat_neg _ _ _ (by simp [hp])
    rw [trimChars_of_slash slash, kept Text.isBlank noBlank, kept (· == '/') (beq_false_of_ne noSlash),
      rooted_of_prefix (List.prefix_refl _) slash]

/-- A path with a blank at its end loses it. -/
theorem normalizeInstance_ne_of_blank {path : String} {front : List Char} {b : Char}
    (slash : path.toList.head? = some '/') (whole : path.toList = front ++ [b]) (blank : Text.isBlank b = true) :
    normalizeInstance path ≠ path := by
  intro same
  have shorter : (path.toList.rdropWhile Text.isBlank).rdropWhile (· == '/') <+: front := by
    rw [whole, List.rdropWhile_concat_pos _ _ _ blank]
    exact (List.rdropWhile_prefix _ _).trans (List.rdropWhile_prefix _ _)
  have began := shorter.trans (whole ▸ List.prefix_append front [b])
  rw [← String.toList_inj, toList_normalizeInstance, trimChars_of_slash slash, rooted_of_prefix began slash] at same
  have := shorter.length_le
  rw [same, whole, List.length_append, List.length_singleton] at this
  omega

theorem normalizeInstance_eq_self_iff {path : String} : normalizeInstance path = path ↔ IsMountPath path := by
  refine ⟨fun same => ?_, normalizeInstance_of_isMountPath⟩
  have begins : ∀ c ∈ path.toList.head?, c = '/' := by
    intro c hc
    rw [← same, toList_normalizeInstance] at hc
    exact head_rooted hc
  refine ⟨begins, fun c hc => ⟨?_, ?_⟩⟩
  · rintro rfl
    have ends := Text.dropTrailing_eq_self_iff.mp (dropTrailing_normalizeInstance path)
    rw [same] at ends
    exact ends hc
  · obtain ⟨front, whole⟩ := List.getLast?_eq_some_iff.mp hc
    by_contra blank
    rw [Bool.not_eq_false] at blank
    exact normalizeInstance_ne_of_blank (slash_of_begins begins whole) whole blank same

/-! ### Twice -/

/-- Before the slashes at the end of the trimmed text stands a blank. It is at the end once they are gone. -/
def BaresBlank (raw : String) : Prop :=
  ∃ front b slashes, Text.trimChars raw.toList = front ++ b :: slashes ∧ Text.isBlank b = true ∧ ∀ c ∈ slashes, c = '/'

theorem not_baresBlank_of_solid {raw : String} (solid : ∀ c ∈ Text.trimChars raw.toList, Text.isBlank c = false) :
    ¬BaresBlank raw := by
  rintro ⟨front, b, slashes, whole, blank, -⟩
  rw [solid b (by simp [whole])] at blank
  cases blank

theorem baresBlank_iff {raw : String} :
    BaresBlank raw ↔ ∃ b ∈ (normalizeInstance raw).toList.getLast?, Text.isBlank b = true := by
  rw [toList_normalizeInstance, getLast?_rooted]
  constructor
  · rintro ⟨front, b, slashes, whole, blank, only⟩
    have other : (b == '/') = false := by
      refine beq_false_of_ne ?_
      rintro rfl
      exact absurd blank (by decide)
    have gone : slashes.rdropWhile (· == '/') = [] :=
      List.rdropWhile_eq_nil_iff.mpr fun c hc => beq_iff_eq.mpr (only c hc)
    have left : (Text.trimChars raw.toList).rdropWhile (· == '/') = front ++ [b] := by
      rw [whole]
      exact (Url.dropEndWhile_append (p := (· == '/')) other front slashes).trans (congrArg (front ++ b :: ·) gone)
    refine ⟨b, ?_, blank⟩
    rw [left, List.getLast?_concat]
    rfl
  · rintro ⟨b, last, blank⟩
    obtain ⟨front, left⟩ := List.getLast?_eq_some_iff.mp last
    refine ⟨front, b, (Text.trimChars raw.toList).rtakeWhile (· == '/'), ?_, blank, fun c hc => ?_⟩
    · have whole : (Text.trimChars raw.toList).rdropWhile (· == '/') ++
          (Text.trimChars raw.toList).rtakeWhile (· == '/') = Text.trimChars raw.toList :=
        List.rdropWhile_append_rtakeWhile
      rw [left, List.append_assoc] at whole
      exact whole.symm
    · exact eq_of_beq (List.mem_rtakeWhile_imp (p := (· == '/')) hc)

theorem isMountPath_normalizeInstance_iff {raw : String} : IsMountPath (normalizeInstance raw) ↔ ¬BaresBlank raw := by
  rw [baresBlank_iff]
  constructor
  · rintro ⟨-, ends⟩ ⟨b, last, blank⟩
    rw [(ends b last).2] at blank
    cases blank
  · intro bare
    refine ⟨fun c hc => ?_, fun c hc => ⟨?_, ?_⟩⟩
    · rw [toList_normalizeInstance] at hc
      exact head_rooted hc
    · rintro rfl
      exact Text.dropTrailing_eq_self_iff.mp (dropTrailing_normalizeInstance raw) hc
    · exact Bool.eq_false_iff.mpr fun blank => bare ⟨c, hc, blank⟩

/-- Bringing a text into the form of a mount path a second time changes nothing exactly if the first time has bared no
    blank. So the console, which does it a second time, asks for its resources below the mount path of the host exactly
    then, whatever the variables of the host. -/
theorem normalizeInstance_again_iff (raw : String) :
    (normalizeInstance (normalizeInstance raw) = normalizeInstance raw ↔ ¬BaresBlank raw) ∧
    ∀ {value? : String → Option String} {c : Host.Config}, Host.Config.ofVariables value? = .ok c →
      (value? Host.Config.mountVariable).getD "" = raw →
        ∀ (release : Release) (language : String) (authorization : Option String),
          (Console.mounted (normalizeInstance c.bootstrap.mount) release language authorization).setup.endpoints.base =
            c.mount ↔ ¬BaresBlank raw := by
  have again : normalizeInstance (normalizeInstance raw) = normalizeInstance raw ↔ ¬BaresBlank raw :=
    normalizeInstance_eq_self_iff.trans isMountPath_normalizeInstance_iff
  refine ⟨again, fun {value? c} h given release language authorization => ?_⟩
  obtain ⟨-, mounted⟩ := Host.eq_of_ofVariables h
  have base : (Console.mounted (normalizeInstance c.bootstrap.mount) release language
      authorization).setup.endpoints.base = normalizeInstance c.mount := dropTrailing_normalizeInstance _
  rw [base, mounted, given]
  exact again

/-- A mount path that is given without a slash before it and with one after it. -/
theorem normalizeInstance_again_given :
    normalizeInstance (normalizeInstance "console/") = normalizeInstance "console/" ∧
      ∃ c, Host.Config.ofVariables Host.givenVariables = .ok c ∧
        (Console.mounted (normalizeInstance c.bootstrap.mount) ⟨"1.0"⟩ "en" none).setup.endpoints.base = c.mount := by
  obtain ⟨again, agree⟩ := normalizeInstance_again_iff "console/"
  have letters : (Text.trimChars "console/".toList).all (fun c => !Text.isBlank c) = true := rfl
  have solid : ¬BaresBlank "console/" :=
    not_baresBlank_of_solid fun c hc => by simpa using List.all_eq_true.mp letters c hc
  have configured : (Host.Config.ofVariables Host.givenVariables).isOk = true := by decide +kernel
  refine ⟨again.mpr solid, ?_⟩
  cases h : Host.Config.ofVariables Host.givenVariables with
  | error e =>
    rw [h] at configured
    cases configured
  | ok c => exact ⟨c, rfl, (agree h rfl ⟨"1.0"⟩ "en" none).mpr solid⟩

/-- The slash at the end hides a blank, which goes only the second time. -/
theorem normalizeInstance_again_ne :
    normalizeInstance "/a /" = "/a " ∧ normalizeInstance "/a " = "/a" ∧
      normalizeInstance (normalizeInstance "/a /") ≠ normalizeInstance "/a /" := by
  decide

end MfaConsole
