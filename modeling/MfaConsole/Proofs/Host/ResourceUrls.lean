import Mathlib.Data.List.DropRight
import MfaConsole.Host.Config
import MfaConsole.Proofs.Host.RelayScope

/-! The URLs of the backend's resources, as the console writes them and as the host passes them on. Both know the mount
    path from the configuration of the host: the console writes every resource below it, and the host takes it off again
    and puts the URL of the backend in its place. -/

namespace MfaConsole

/-! ### Slashes at the end -/

namespace Text

theorem toList_dropTrailing (c : Char) (s : String) : (dropTrailing c s).toList = s.toList.rdropWhile (· == c) :=
  String.toList_ofList

theorem dropTrailing_eq_self_iff {c : Char} {s : String} : dropTrailing c s = s ↔ s.toList.getLast? ≠ some c := by
  rw [← String.toList_inj, toList_dropTrailing, List.rdropWhile_eq_self_iff]
  rcases List.eq_nil_or_concat s.toList with h | ⟨front, last, h⟩ <;> simp [h]

theorem dropTrailing_dropTrailing (c : Char) (s : String) : dropTrailing c (dropTrailing c s) = dropTrailing c s := by
  rw [← String.toList_inj, toList_dropTrailing, toList_dropTrailing, List.rdropWhile_idempotent]

end Text

/-- A mount path has no slash at its end. -/
theorem dropTrailing_normalizeInstance (raw : String) :
    Text.dropTrailing '/' (normalizeInstance raw) = normalizeInstance raw := by
  rw [normalizeInstance]
  split
  · rfl
  · next given =>
    split
    · exact Text.dropTrailing_dropTrailing '/' _
    · rw [Text.dropTrailing_eq_self_iff, String.toList_append, List.getLast?_append]
      have ends := Text.dropTrailing_eq_self_iff.mp (Text.dropTrailing_dropTrailing '/' (Text.trim raw))
      rcases List.eq_nil_or_concat (Text.dropTrailing '/' (Text.trim raw)).toList with nothing | ⟨front, last, whole⟩
      · exact absurd (String.toList_eq_nil_iff.mp nothing) given
      · rw [whole] at ends ⊢
        simpa using ends

/-! ### Resources -/

namespace Rest

/-- A resource of the backend, with what names it. -/
inductive Resource where
  | auth
  | servers
  | server (identifier : String)
  | serverTest
  | machines
  | machineTokens
  | machineToken (key : Wire.TokenKey)
  | machineTokenOptions
  | applications
  | clientTypes
  | recover
  | recoverReset

namespace Resource

def path (e : Endpoints) : Resource → String
  | .auth => e.auth
  | .servers => e.servers
  | .server identifier => e.server identifier
  | .serverTest => e.serverTest
  | .machines => e.machines
  | .machineTokens => e.machineTokens
  | .machineToken key => e.machineToken key
  | .machineTokenOptions => e.machineTokenOptions
  | .applications => e.applications
  | .clientTypes => e.clientTypes
  | .recover => e.recover
  | .recoverReset => e.recoverReset

/-- The first segment. -/
def root : Resource → String
  | .auth => "auth"
  | .servers | .server _ | .serverTest => "edumfaserver"
  | .machines | .machineTokens | .machineToken _ | .machineTokenOptions => "machine"
  | .applications => "application"
  | .clientTypes => "client"
  | .recover | .recoverReset => "recover"

theorem root_mem (r : Resource) : r.root ∈ resourceRoots := by
  cases r <;> simp [root, resourceRoots]

/-- The same resource stands at the same path below every base. -/
theorem path_eq (e : Endpoints) (r : Resource) : r.path e = e.base ++ r.path (.below "") := by
  have bare (s : String) : (Endpoints.below "").base ++ s = s := String.empty_append
  cases r <;> simp only [path, Endpoints.auth, Endpoints.servers, Endpoints.server, Endpoints.serverTest,
    Endpoints.machines, Endpoints.machineTokens, Endpoints.machineToken, Endpoints.machineTokenOptions,
    Endpoints.applications, Endpoints.clientTypes, Endpoints.recover, Endpoints.recoverReset, bare,
    String.append_assoc]

/-- The first segment of the path of a resource is one of the backend's, whatever names the resource. -/
theorem toList_path (r : Resource) : ∃ tail, (∀ c ∈ tail.head?, c = '/') ∧
    (r.path (.below "")).toList = '/' :: (r.root.toList ++ tail) := by
  have bare : (Endpoints.below "").base = "" := rfl
  cases r with
  | auth | recover => exact ⟨[], by simp, rfl⟩
  | servers | machines | applications | clientTypes => exact ⟨['/'], by simp, rfl⟩
  | serverTest => exact ⟨"/test_request".toList, by simp, rfl⟩
  | machineTokens => exact ⟨"/token".toList, by simp, rfl⟩
  | machineTokenOptions => exact ⟨"/tokenoption".toList, by simp, rfl⟩
  | recoverReset => exact ⟨"/reset".toList, by simp, rfl⟩
  | server identifier =>
    refine ⟨'/' :: (Text.Percent.segment identifier).toList, by simp, ?_⟩
    simp [path, root, Endpoints.server, bare]
  | machineToken key =>
    refine ⟨'/' :: ("token/" ++ Text.Percent.segment key.serial ++ "/" ++ Text.Percent.segment key.application ++ "/" ++
      toString key.mtid.toInt).toList, by simp, ?_⟩
    simp [path, root, Endpoints.machineToken, bare]

end Resource
end Rest

/-! ### What the host makes of them -/

namespace Host

/-- A URL of the web that goes on after its scheme and does not end in a slash. -/
def IsWebBase (url : String) : Prop :=
  (∃ scheme ∈ ["http://", "https://"], ∃ rest, rest ≠ [] ∧ url.toList = scheme.toList ++ rest) ∧
    url.toList.getLast? ≠ some '/'

theorem isWebBase_of_isWebUrl {url : String} (web : Config.isWebUrl url = true)
    (ends : url.toList.getLast? ≠ some '/') : IsWebBase url := by
  rw [Config.isWebUrl, Bool.or_eq_true, Option.isSome_iff_exists, Option.isSome_iff_exists] at web
  have begins : ∃ scheme ∈ ["http://", "https://"], ∃ rest, url.toList = scheme.toList ++ rest := by
    rcases web with ⟨rest, h⟩ | ⟨rest, h⟩
    · exact ⟨_, by simp, rest, Text.after?_eq_some_iff.mp h⟩
    · exact ⟨_, by simp, rest, Text.after?_eq_some_iff.mp h⟩
  obtain ⟨scheme, hs, rest, hu⟩ := begins
  refine ⟨⟨scheme, hs, rest, ?_, hu⟩, ends⟩
  rintro rfl
  -- A scheme alone ends in a slash.
  have slash : ∀ scheme ∈ ["http://", "https://"], scheme.toList.getLast? = some '/' := by decide
  rw [hu, List.append_nil] at ends
  exact ends (slash scheme hs)

theorem isWebBase_of_readBackend {raw : Option String} {url : String} (h : Config.readBackend raw = .ok url) :
    IsWebBase url := by
  rw [Config.readBackend] at h
  split at h
  · cases h
  · split at h
    · next web =>
      have same := Except.ok.inj h
      rw [same] at web
      refine isWebBase_of_isWebUrl web ?_
      rw [← same]
      exact Text.dropTrailing_eq_self_iff.mp (Text.dropTrailing_dropTrailing '/' _)
    · cases h

theorem eq_of_ofVariables {value? : String → Option String} {c : Config} (h : Config.ofVariables value? = .ok c) :
    Config.readBackend (value? Config.backendVariable) = .ok c.backend ∧
      c.mount = normalizeInstance ((value? Config.mountVariable).getD "") := by
  simp only [Config.ofVariables, bind, Except.bind, pure, Except.pure] at h
  split at h
  · cases h
  · split at h
    · cases h
    · next read =>
      cases h
      exact ⟨read, by dsimp only⟩

theorem backendPath?_append {path root : String} {tail : List Char} (hr : root ∈ Rest.resourceRoots)
    (ht : ∀ c ∈ tail.head?, c = '/') (hp : path.toList = '/' :: (root.toList ++ tail)) (mount : String) :
    backendPath? mount (mount ++ path) = some path := by
  have free : ∀ c ∈ root.toList, (c != '/') = true := fun c hc =>
    bne_iff_ne.mpr fun slash => Relay.not_mem_resourceRoots hr (slash ▸ hc)
  have first : (root.toList ++ tail).takeWhile (· != '/') = root.toList := by
    rw [List.takeWhile_append_of_pos free]
    cases tail with
    | nil => simp
    | cons c more => simp [ht c rfl]
  rw [backendPath?, String.toList_append, Text.after?_append, hp]
  simp only [first, String.ofList_toList]
  rw [if_pos (List.contains_iff_mem.mpr hr), ← hp, String.ofList_toList]

/-- Whatever the variables from which a configuration is made, the console and the host agree on the URLs of all
    resources: the path that the console writes for a resource below the mount path is a path of the backend, namely
    that of the resource below nothing, and what is asked for there goes to the same path of the configured backend,
    with its query unless that is empty. -/
theorem target_resource {value? : String → Option String} {c : Config} (h : Config.ofVariables value? = .ok c) :
    IsWebBase c.backend ∧ ∀ (r : Rest.Resource) (query : Option String),
      backendPath? c.mount (r.path (.below c.mount)) = some (r.path (.below "")) ∧
      (Relay.ofBase c.backend c.mount).target? (r.path (.below c.mount)) query =
        some (c.backend ++ r.path (.below "") ++ (query.filter (· ≠ "")).elim "" ("?" ++ ·)) := by
  obtain ⟨given, mounted⟩ := eq_of_ofVariables h
  have web := isWebBase_of_readBackend given
  refine ⟨web, fun r query => ?_⟩
  have base : (Rest.Endpoints.below c.mount).base = c.mount := by
    rw [mounted]
    exact dropTrailing_normalizeInstance _
  have relayed : backendPath? c.mount (r.path (.below c.mount)) = some (r.path (.below "")) := by
    obtain ⟨tail, ht, hp⟩ := r.toList_path
    rw [r.path_eq, base]
    exact backendPath?_append r.root_mem ht hp c.mount
  have same : Relay.ofBase c.backend c.mount = ⟨c.backend, c.mount⟩ := by
    rw [Relay.ofBase, Text.dropTrailing_eq_self_iff.mpr web.2]
  refine ⟨relayed, ?_⟩
  rw [same, Relay.target?, relayed, Option.map_some]
  cases query.filter (· ≠ "") with
  | none => simp
  | some q => simp [String.append_assoc]

def givenVariables : String → Option String :=
  fun name => [("EDUMFA_BACKEND_URL", " https://mfa.example.org/api// "), ("INSTANCE_URL", "console/"),
    ("PORT", "+8080")].lookup name

/-- An identifier with a slash and a blank in it stays one segment on the way to the backend. -/
theorem target_resource_escaped : ∃ c, Config.ofVariables givenVariables = .ok c ∧ IsWebBase c.backend ∧
    (Relay.ofBase c.backend c.mount).target? "/console/edumfaserver/a%2Fb%20c" (some "x=1") =
      some "https://mfa.example.org/api/edumfaserver/a%2Fb%20c?x=1" := by
  have given : (Config.ofVariables givenVariables).map (fun c => (c.backend, c.mount)) =
      .ok ("https://mfa.example.org/api", "/console") := by decide +kernel
  cases h : Config.ofVariables givenVariables with
  | error e => rw [h] at given; cases given
  | ok c =>
    obtain ⟨web, agree⟩ := target_resource h
    rw [h] at given
    obtain ⟨backend, mount⟩ := Prod.mk.inj (Except.ok.inj given)
    have written : Rest.Resource.path (.below c.mount) (.server "a/b c") = "/console/edumfaserver/a%2Fb%20c" := by
      rw [mount]
      decide +kernel
    have asked := (agree (.server "a/b c") (some "x=1")).2
    rw [written, backend] at asked
    refine ⟨c, rfl, web, ?_⟩
    rw [backend, asked]
    decide +kernel

end Host
end MfaConsole
