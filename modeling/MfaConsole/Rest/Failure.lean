import MfaConsole.Wire.Envelope

/-! Why an exchange with the backend failed: no answer came, the answer refused the request, or the answer was not
    of the expected shape. -/

namespace MfaConsole
namespace Rest

/-- The cause of a failed exchange. -/
inductive Failure where
  | transport (reason : String)
  | status (code : Nat) (message : String) (body : Json)
  /-- The answer does not have the expected shape. -/
  | decode (reason : String)

namespace Failure

/-- What a body says in its `result` of what went wrong: the `message` of the `error` there. -/
def told? (body : Json) : Option String :=
  (body.get? "result").bind (·.get? "error") |>.bind (·.get? "message") |>.bind (·.string?)

/-- The cause of an answer without success; the backend's own message is used where the body holds one. -/
def ofAnswer (code : Nat) (body : Json) : Failure :=
  .status code ((told? body).getD ("HTTP " ++ toString code)) body

/-- A body holds a text as the `message` of the object `error` of its object `result`. -/
def Tells (body : Json) (message : String) : Prop :=
  ∃ members result error, body = .object members ∧ members.lookup "result" = some (.object result) ∧
    result.lookup "error" = some (.object error) ∧ error.lookup "message" = some (.string message)

theorem told?_eq_some_iff {body : Json} {message : String} : told? body = some message ↔ Tells body message := by
  simp only [told?, Option.bind_eq_some_iff, Json.get?_eq_some_iff, Json.string?_eq_some_iff]
  constructor
  · rintro ⟨_, ⟨_, ⟨_, ⟨members, rfl, hresult⟩, result, rfl, herror⟩, error, rfl, hmessage⟩, rfl⟩
    exact ⟨members, result, error, rfl, hresult, herror, hmessage⟩
  · rintro ⟨members, result, error, rfl, hresult, herror, hmessage⟩
    exact ⟨_, ⟨_, ⟨_, ⟨members, rfl, hresult⟩, result, rfl, herror⟩, error, rfl, hmessage⟩, rfl⟩

/-- The status and the body are kept as they are. The message is the one that the body holds, and else names the
    status. -/
theorem ofAnswer_cases (code : Nat) (body : Json) : ∃ message, ofAnswer code body = .status code message body ∧
    (Tells body message ∨ (∀ told, ¬Tells body told) ∧ message = "HTTP " ++ toString code) := by
  cases h : told? body with
  | some message => exact ⟨message, by rw [ofAnswer, h, Option.getD_some], Or.inl (told?_eq_some_iff.mp h)⟩
  | none =>
    have silent (told : String) : ¬Tells body told := fun holds => by cases h.symm.trans (told?_eq_some_iff.mpr holds)
    exact ⟨_, by rw [ofAnswer, h, Option.getD_none], Or.inr ⟨silent, rfl⟩⟩

/-- The status of the answer, if one came that could be read. -/
def code? : Failure → Option Nat
  | .status code _ _ => some code
  | .transport _ | .decode _ => none

def isRejection (f : Failure) : Bool :=
  f.code? = some 401 || f.code? = some 403

def message : Failure → String
  | .status _ message _ => message
  | .transport reason | .decode reason => reason

def text : Failure → String
  | .transport reason => "request failed: " ++ reason
  | .status code message _ => "server responded with " ++ toString code ++ ": " ++ message
  | .decode reason => "failed to decode response: " ++ reason

end Failure

/-- The envelope that a body holds; the reason is given where the body does not have the expected shape. -/
def readEnvelope {α : Type} (payload : Wire.Reader α) (body : Json) (reason : String) :
    Except Failure (Wire.Envelope α) :=
  match Wire.Envelope.read payload body with
  | some e => .ok e
  | none => .error (.decode reason)

theorem readEnvelope_eq_ok_iff {α : Type} {payload : Wire.Reader α} {body : Json} {reason : String}
    {e : Wire.Envelope α} :
    readEnvelope payload body reason = .ok e ↔ Wire.Envelope.read payload body = some e := by
  rw [readEnvelope]
  cases Wire.Envelope.read payload body <;> simp

end Rest
end MfaConsole
