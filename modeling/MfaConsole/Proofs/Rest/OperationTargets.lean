import MfaConsole.Console.Servers
import MfaConsole.Proofs.Rest.ResourcePaths

/-! Where the operations of the backend send their requests. The method and the segments of a path tell the operation
    of every request, but for one: a definition stored as `test_request` goes to where connections are tested. -/

namespace MfaConsole
namespace Rest

/-- Where a request goes: its method, and its URL without the query. -/
def Request.target (r : Request) : Method × String := (r.method, r.url)

namespace Operation

/-- An operation without its arguments. -/
inductive Kind where
  | servers
  | setServer
  | deleteServer
  | testServer
  | machines
  | tokens
  | attach
  | detach
  | saveOptions
  | applications
  | clientTypes
  | requestCode
  | resetPassword
  deriving DecidableEq

def kind : Operation → Kind
  | .servers => .servers
  | .setServer _ => .setServer
  | .deleteServer _ => .deleteServer
  | .testServer _ => .testServer
  | .machines _ => .machines
  | .tokens _ => .tokens
  | .attach _ => .attach
  | .detach _ => .detach
  | .saveOptions _ => .saveOptions
  | .applications => .applications
  | .clientTypes => .clientTypes
  | .requestCode _ => .requestCode
  | .resetPassword _ => .resetPassword

def resource : Operation → Resource
  | .servers => .servers
  | .setServer form => .server form.identifier
  | .deleteServer identifier => .server identifier
  | .testServer _ => .serverTest
  | .machines _ => .machines
  | .tokens _ | .attach _ => .machineTokens
  | .detach key => .machineToken key
  | .saveOptions _ => .machineTokenOptions
  | .applications => .applications
  | .clientTypes => .clientTypes
  | .requestCode _ => .recover
  | .resetPassword _ => .recoverReset

def method : Operation → Method
  | .servers | .machines _ | .tokens _ | .applications | .clientTypes => .get
  | .setServer _ | .testServer _ | .attach _ | .saveOptions _ | .requestCode _ | .resetPassword _ => .post
  | .deleteServer _ | .detach _ => .delete

theorem target_request (e : Endpoints) (o : Operation) : (o.request e).target = (o.method, o.resource.path e) := by
  cases o <;> rfl

theorem target_eq_target_iff {e : Endpoints} {o o' : Operation} : (o.request e).target = (o'.request e).target ↔
    o.method = o'.method ∧ o.resource.segments = o'.resource.segments := by
  rw [target_request, target_request, Prod.mk.injEq, Resource.path_eq_path_iff]

/-! ### Telling operations apart -/

/-- What a request is for, as its method and the segments of its path tell. The words of fixed paths come before
    identifiers. -/
def Kind.ofTarget? : Method → List String → Option Kind
  | .get, ["edumfaserver", ""] => some .servers
  | .get, ["machine", ""] => some .machines
  | .get, ["machine", "token"] => some .tokens
  | .get, ["application", ""] => some .applications
  | .get, ["client", ""] => some .clientTypes
  | .post, ["edumfaserver", "test_request"] => some .testServer
  | .post, ["edumfaserver", _] => some .setServer
  | .post, ["machine", "token"] => some .attach
  | .post, ["machine", "tokenoption"] => some .saveOptions
  | .post, ["recover"] => some .requestCode
  | .post, ["recover", "reset"] => some .resetPassword
  | .delete, ["edumfaserver", _] => some .deleteServer
  | .delete, ["machine", "token", _, _, _] => some .detach
  | _, _ => none

/-- The identifier as which an operation stores a definition. -/
def storedAs? : Operation → Option String
  | .setServer form => some form.identifier
  | _ => none

def testWord : String := "test_request"

theorem segment_testWord : Text.Percent.segment testWord = testWord := by decide +kernel

/-- A request is told to be for its own operation, unless it stores a definition under the word of the test. -/
theorem ofTarget?_of_ne {o : Operation} (h : o.storedAs? ≠ some testWord) :
    Kind.ofTarget? o.method o.resource.segments = some o.kind := by
  cases o with
  | setServer form =>
    have other : Text.Percent.segment form.identifier ≠ "test_request" := fun same =>
      h (congrArg some (Text.Percent.segment_injective (same.trans segment_testWord.symm)))
    rw [method, resource, Resource.segments, Kind.ofTarget?, kind]
    exact other
  | _ => rfl

theorem stores_of_storedAs? {o : Operation} {identifier : String} (h : o.storedAs? = some identifier) :
    ∃ form, o = .setServer form ∧ form.identifier = identifier := by
  cases o with
  | setServer form => exact ⟨form, rfl, Option.some.inj h⟩
  | _ => cases h

/-- What goes to the place where connections are tested. -/
def GoesToTest (o : Operation) : Prop := o.method = .post ∧ o.resource.segments = Resource.serverTest.segments

theorem goesToTest_of_storedAs? {o : Operation} (h : o.storedAs? = some testWord) : o.GoesToTest := by
  obtain ⟨form, rfl, same⟩ := stores_of_storedAs? h
  refine ⟨rfl, ?_⟩
  rw [resource, Resource.segments, same, segment_testWord]
  rfl

theorem goesToTest_of_kind {o : Operation} (h : o.kind = .testServer) : o.GoesToTest := by
  cases o with
  | testServer => exact ⟨rfl, rfl⟩
  | _ => cases h

theorem GoesToTest.told {o : Operation} (h : o.GoesToTest) :
    Kind.ofTarget? o.method o.resource.segments = some .testServer := by
  rw [h.1, h.2]
  rfl

/-- Requests of two different operations go to the same place exactly if one of them stores a definition as
    `test_request` and the other tests a connection. -/
theorem target_shared_iff {e : Endpoints} {o o' : Operation} (different : o.kind ≠ o'.kind) :
    (o.request e).target = (o'.request e).target ↔
      o.storedAs? = some "test_request" ∧ o'.kind = .testServer ∨
        o.kind = .testServer ∧ o'.storedAs? = some "test_request" := by
  rw [target_eq_target_iff]
  constructor
  · rintro ⟨sameMethod, samePath⟩
    have told : Kind.ofTarget? o.method o.resource.segments = Kind.ofTarget? o'.method o'.resource.segments := by
      rw [sameMethod, samePath]
    by_cases h : o.storedAs? = some testWord
    · -- Both cannot store a definition, as they are different; so the other one is told rightly.
      have h' : o'.storedAs? ≠ some testWord := fun h' => by
        obtain ⟨form, rfl, -⟩ := stores_of_storedAs? h
        obtain ⟨form', rfl, -⟩ := stores_of_storedAs? h'
        exact different rfl
      rw [(goesToTest_of_storedAs? h).told, ofTarget?_of_ne h'] at told
      exact Or.inl ⟨h, (Option.some.inj told).symm⟩
    · by_cases h' : o'.storedAs? = some testWord
      · rw [ofTarget?_of_ne h, (goesToTest_of_storedAs? h').told] at told
        exact Or.inr ⟨Option.some.inj told, h'⟩
      · rw [ofTarget?_of_ne h, ofTarget?_of_ne h'] at told
        exact absurd (Option.some.inj told) different
  · have meet {o o' : Operation} (h : o.GoesToTest) (h' : o'.GoesToTest) :
        o.method = o'.method ∧ o.resource.segments = o'.resource.segments :=
      ⟨h.1.trans h'.1.symm, h.2.trans h'.2.symm⟩
    rintro (⟨h, tests⟩ | ⟨tests, h⟩)
    · exact meet (goesToTest_of_storedAs? h) (goesToTest_of_kind tests)
    · exact meet (goesToTest_of_kind tests) (goesToTest_of_storedAs? h)

def formNamed (identifier : String) : Wire.ServerForm :=
  { identifier, url := "https://x", tls := true, description := "" }

/-- An identifier that goes on after the word of the test is stored at a place of its own. -/
theorem target_unshared_slash :
    let stores : Operation := .setServer (formNamed "test_request/")
    let tests : Operation := .testServer (.ofForm (formNamed "test_request/") "u" "p")
    stores.kind ≠ tests.kind ∧ (stores.request (.below "")).target ≠ (tests.request (.below "")).target := by
  refine ⟨by decide, fun same => ?_⟩
  rcases (target_shared_iff (by decide)).mp same with ⟨h, -⟩ | ⟨h, -⟩
  · exact absurd h (by decide)
  · exact absurd h (by decide)

/-- A complete form is stored to where connections are tested. -/
theorem exists_target_shared : ∃ (form : Wire.ServerForm) (test : Wire.ConnectionTest),
    Console.isComplete form = true ∧ (setServer form).kind ≠ (testServer test).kind ∧
      ((setServer form).request (.below "")).target = ((testServer test).request (.below "")).target :=
  ⟨formNamed "test_request", .ofForm (formNamed "test_request") "u" "p", by decide +kernel, by decide,
    by decide +kernel⟩

end Operation
end Rest
end MfaConsole
