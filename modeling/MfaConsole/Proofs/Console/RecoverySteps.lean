import Mathlib.Data.List.DropRight
import Mathlib.Data.List.Induction
import MfaConsole.Proofs.Console.Confirmations

/-! The recovery of a password, where its steps are taken one after the other. What the view shows can be told from the
    steps and what each of them exchanged: the phase is what the last request came to, and a message is shown if
    passwords were found not to match after that. Such passwords are never sent. -/

namespace MfaConsole
namespace Console

/-! ### Steps -/

/-- A step of the recovery. -/
inductive RecoveryStep where
  | requestCode (r : Wire.CodeRequest)
  | resetPassword (r : Wire.PasswordReset) (confirmation : String)

namespace RecoveryStep

def call : RecoveryStep → Call
  | requestCode r => .requestCode r
  | resetPassword r confirmation => .resetPassword r confirmation

/-- The new password was not typed the same twice. -/
def Mismatches : RecoveryStep → Prop
  | requestCode _ => False
  | resetPassword r confirmation => r.password ≠ confirmation

instance : DecidablePred Mismatches
  | requestCode _ => inferInstanceAs (Decidable False)
  | resetPassword r confirmation => inferInstanceAs (Decidable (r.password ≠ confirmation))

/-- What a step sends. -/
def request (e : Rest.Endpoints) : RecoveryStep → Rest.Request
  | requestCode r => .post e.recover r.write
  | resetPassword r _ => .post e.recoverReset r.write

/-- The phase that a reply to a step leads to. -/
def phase (reply : Rest.Reply) : RecoveryStep → RecoveryPhase
  | requestCode _ => if Success.codeSent.confirmedBy reply then .codeSent else .idle
  | resetPassword _ _ => if Success.passwordReset.confirmedBy reply then .passwordReset else .idle

def ending : RecoveryStep → Ending
  | requestCode r => .recoveryCode r
  | resetPassword r _ => .passwordReset r

end RecoveryStep

/-- Steps in their order, each with what it exchanged. -/
abbrev RecoveryLog := List (RecoveryStep × List Exchange)

/-- The requests sent, each with its step. -/
def sentSteps (log : RecoveryLog) : List (RecoveryStep × Exchange) := log.flatMap fun h => h.2.map fun x => (h.1, x)

/-- What the last request came to. -/
def phaseAfter (log : RecoveryLog) : RecoveryPhase := (sentSteps log).getLast?.elim .idle fun s => s.1.phase s.2.reply

/-- Passwords did not match in a step after the last one that sent a request. -/
def MismatchedSince (log : RecoveryLog) : Prop := ∃ h ∈ log.rtakeWhile fun h => h.2.isEmpty, h.1.Mismatches

theorem begin_of_mismatches {s : RecoveryStep} (h : s.Mismatches) (c : Console) : c.begin s.call =
    (c.changeRecovery fun v => { v with error := some (c.translate mismatchMessage) }, .settled) := by
  cases s with
  | requestCode r => cases h
  | resetPassword r confirmation => exact if_neg h

theorem begin_of_matches {s : RecoveryStep} (h : ¬s.Mismatches) (c : Console) :
    c.begin s.call = (c.beginRecovery, .ending s.ending) := by
  cases s with
  | requestCode r => rfl
  | resetPassword r confirmation => exact if_pos (Decidable.not_not.mp h)

theorem asked_ending (c : Console) (s : RecoveryStep) : c.asked s.ending.operation =
    { s.request c.setup.endpoints with authorization := c.authorization } := by
  cases s <;> rfl

theorem recovery_receive (c : Console) (o : Rest.Operation) (reply : Rest.Reply) :
    (c.receive o reply).1.recovery = c.recovery := by
  have kept : Keeps none c (c.receive o reply).1 := .receive c o reply
  exact kept.recovery (by simp)

/-- The reply to a step ends the wait for it. -/
theorem recovery_conclude (c : Console) (s : RecoveryStep) (reply : Rest.Reply) :
    (c.conclude s.ending reply).recovery = { c.recovery with phase := s.phase reply } := by
  cases s with
  | requestCode r =>
    have told : Success.codeSent.confirmedBy reply = confirmed (c.receive (.requestCode r) reply).2 :=
      Success.confirmedBy_of_value (fun _ => Iff.rfl) (receive_snd c _ reply)
    have kept := recovery_receive c (.requestCode r) reply
    rw [RecoveryStep.ending, conclude, codeRequested, RecoveryStep.phase, told, ← kept]
    dsimp only
    split <;> rfl
  | resetPassword r confirmation =>
    have told : Success.passwordReset.confirmedBy reply = confirmed (c.receive (.resetPassword r) reply).2 :=
      Success.confirmedBy_of_value (fun _ => Iff.rfl) (receive_snd c _ reply)
    have kept := recovery_receive c (.resetPassword r) reply
    rw [RecoveryStep.ending, conclude, passwordSet, RecoveryStep.phase, told, ← kept]
    dsimp only
    split <;> rfl

section Step
variable (reply : List Exchange → Rest.Request → Rest.Reply) (d : Desk (List Exchange))

theorem call_of_mismatches {s : RecoveryStep} (h : s.Mismatches) : d.call (prompt reply) s.call =
    { d with
      console := d.console.changeRecovery fun v => { v with error := some (d.console.translate mismatchMessage) },
      tasks := d.tasks ++ [.over] } := by
  rw [Desk.call, begin_of_mismatches h]
  rfl

theorem exchanged_of_mismatches {s : RecoveryStep} (h : s.Mismatches) : d.exchanged reply s.call = [] := by
  rw [Desk.exchanged, call_of_mismatches reply d h, List.drop_length]

/-- A step that sends its request is over with the reply. -/
theorem exchanged_of_matches {s : RecoveryStep} (h : ¬s.Mismatches) : ∃ answer,
    d.exchanged reply s.call =
      [⟨{ s.request d.console.setup.endpoints with authorization := d.console.authorization }, answer⟩] ∧
    (d.call (prompt reply) s.call).console.recovery = { phase := s.phase answer, error := none } := by
  have through := Desk.made_exchanged reply d s.call
  rw [begin_of_matches h] at through
  generalize d.exchanged reply s.call = made at *
  generalize (d.call (prompt reply) s.call).console = after at *
  cases through with
  | ending _ answer =>
    refine ⟨answer, ?_, recovery_conclude _ s answer⟩
    rw [asked_ending]
    rfl

end Step

/-! ### All steps -/

theorem phaseAfter_unsent (log : RecoveryLog) (s : RecoveryStep) : phaseAfter (log ++ [(s, [])]) = phaseAfter log := by
  simp [phaseAfter, sentSteps]

theorem phaseAfter_sent (log : RecoveryLog) (s : RecoveryStep) (x : Exchange) :
    phaseAfter (log ++ [(s, [x])]) = s.phase x.reply := by
  simp [phaseAfter, sentSteps]

theorem mismatchedSince_unsent (log : RecoveryLog) {s : RecoveryStep} (h : s.Mismatches) :
    MismatchedSince (log ++ [(s, [])]) := by
  rw [MismatchedSince, List.rtakeWhile_concat_pos _ _ _ rfl]
  exact ⟨(s, []), by simp, h⟩

theorem not_mismatchedSince_sent (log : RecoveryLog) (s : RecoveryStep) (x : Exchange) :
    ¬MismatchedSince (log ++ [(s, [x])]) := by
  rw [MismatchedSince, List.rtakeWhile_concat_neg _ _ _ (by simp)]
  simp

/-- What is known after steps. -/
structure Follows (first : Console) (d : Desk (List Exchange)) (log : RecoveryLog) : Prop where
  same : SameSetup first d.console
  phase : d.console.recovery.phase = phaseAfter log
  mismatched : MismatchedSince log → d.console.recovery.error = some (first.translate mismatchMessage)
  matched : ¬MismatchedSince log → d.console.recovery.error = none

section Run
variable {reply : List Exchange → Rest.Request → Rest.Reply} {first : Console} {d : Desk (List Exchange)}
  {log : RecoveryLog}

theorem Follows.translate (follows : Follows first d log) (message : String) :
    d.console.translate message = first.translate message := by
  rw [Console.translate, follows.same.setup, Console.translate]

theorem Follows.step (follows : Follows first d log) (s : RecoveryStep) :
    Follows first (d.call (prompt reply) s.call) (log ++ [(s, d.exchanged reply s.call)]) := by
  by_cases h : s.Mismatches
  · rw [call_of_mismatches reply d h, exchanged_of_mismatches reply d h]
    have since := mismatchedSince_unsent log h
    refine ⟨follows.same.trans ⟨rfl, rfl⟩, ?_, fun _ => ?_, fun not => absurd since not⟩
    · rw [phaseAfter_unsent]
      exact follows.phase
    · rw [← follows.translate]
      rfl
  · obtain ⟨answer, exchanged, recovery⟩ := exchanged_of_matches reply d h
    have through := (sameSetup_begin d.console s.call).trans (Desk.made_exchanged reply d s.call).sameSetup
    rw [exchanged]
    refine ⟨follows.same.trans through, ?_, fun since => ?_, fun _ => congrArg RecoveryView.error recovery⟩
    · rw [phaseAfter_sent]
      exact congrArg RecoveryView.phase recovery
    · exact absurd since (not_mismatchedSince_sent log s _)

end Run

end Console
end MfaConsole
