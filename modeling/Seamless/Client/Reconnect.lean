import Seamless.Client.Session

/-!
The reconnect loop of the client's `main`: sessions one after the other, with a
pause between them after an error, until an error is permanent or there were too many.
-/

namespace Seamless.Client

open Seamless.Common
open Seamless.Library.ByteStream
open Seamless.Library.TransitionSystem

/-- How `run_session` fails: before there is a control stream, or on it. -/
inductive RunError where
  | bind (text : String)
  | connect (text : String)
  | session (e : SessionError)
  deriving Repr, DecidableEq

/-- The settings of a client process. `debug` is the `Debug` format of a frame. -/
structure Settings where
  token : Option String
  kind : TunnelKind
  -- 0 = unlimited.
  maxRetries : UInt32
  debug : ControlFrame → String

/-- `to_string` of the error: its outermost context. -/
def RunError.message (debug : ControlFrame → String) : RunError → String
  | .bind text => "seam bind: " ++ text
  | .connect text => "seam connect: " ++ text
  | .session (.sendingRegister _) => "sending register"
  | .session (.awaitingReply _) => "awaiting register reply"
  | .session (.refused code message) =>
      "PERMANENT relay refused: " ++ toString code.toNat ++ " " ++ message
  | .session (.unexpectedReply frame) => "unexpected reply: " ++ debug frame

def RunError.isPermanent (debug : ControlFrame → String) (e : RunError) : Bool :=
  decide ("PERMANENT".toList <:+: (e.message debug).toList)

inductive Exit where
  | ctrlC
  | permanent (e : RunError)
  | gaveUp (attempts : UInt32)
  deriving Repr, DecidableEq

inductive LoopPc where
  | sleeping
  -- In `run_session`, up to the end of the handshake.
  | connecting
  | running (session : Session)
  | exited (exit : Exit)

/-- The loop and its variables; `backoff` in seconds. -/
structure Reconnect where
  attempts : UInt32
  backoff : Option Nat
  pc : LoopPc

def Reconnect.started : Reconnect := ⟨0, none, .connecting⟩

/-- The delay after that many failures in a row. A delay of zero is none. -/
def backoffAfter (attempts : UInt32) : Option Nat :=
  if attempts = 1 then none
  else if attempts = 2 then some 1
  else if attempts = 3 then some 2
  else if attempts = 4 then some 4
  else if attempts = 5 then some 8
  else if attempts = 6 then some 16
  else some 30

/-- The top of the loop. -/
def Reconnect.next (attempts : UInt32) (backoff : Option Nat) : Reconnect :=
  ⟨attempts, backoff, if backoff.isSome then .sleeping else .connecting⟩

def Reconnect.afterSession (settings : Settings) (l : Reconnect) :
    Except RunError Unit → Reconnect
  | .ok _ => .next 0 none
  | .error e =>
      if e.isPermanent settings.debug then { l with pc := .exited (.permanent e) }
      else
        let attempts := l.attempts + 1
        if settings.maxRetries ≠ 0 ∧ settings.maxRetries ≤ attempts then
          { l with attempts := attempts, pc := .exited (.gaveUp attempts) }
        else .next attempts (backoffAfter attempts)

inductive LoopInput where
  | slept
  | ctrlC
  | bindFailed (text : String)
  | connectFailed (text : String)
  | connected
  | session (input : SessionInput)

/-- What a session has come to: an end of `run_session`, or the session itself. -/
def Reconnect.afterStep (settings : Settings) (l : Reconnect) (session : Session) : Reconnect :=
  match session.pc with
  | .ended result => l.afterSession settings (result.mapError .session)
  | _ => { l with pc := .running session }

def Reconnect.step (settings : Settings) (l : Reconnect) : LoopInput → Option Reconnect
  | .slept =>
      match l.pc with
      | .sleeping => some { l with pc := .connecting }
      | _ => none
  | .ctrlC =>
      match l.pc with
      | .exited _ => none
      | _ => some { l with pc := .exited .ctrlC }
  | .bindFailed text =>
      match l.pc with
      | .connecting => some (l.afterSession settings (.error (.bind text)))
      | _ => none
  | .connectFailed text =>
      match l.pc with
      | .connecting => some (l.afterSession settings (.error (.connect text)))
      | _ => none
  | .connected =>
      match l.pc with
      | .connecting => some { l with pc := .running (.opened settings.token settings.kind) }
      | _ => none
  | .session input =>
      match l.pc with
      | .running session => (session.step input).map (l.afterStep settings)
      | _ => none

/-- The bytes on the control stream of the running session after `input`. -/
def Reconnect.sent (l : Reconnect) : LoopInput → Option (List UInt8)
  | .session input =>
      match l.pc with
      | .running session => (session.step input).map Session.control
      | _ => none
  | _ => none

/-- The loop has ended because the relay refused the registration. -/
def Reconnect.refusal (l : Reconnect) : Option (UInt16 × String) :=
  match l.pc with
  | .exited (.permanent (.session (.refused code message))) => some (code, message)
  | _ => none

section Refusal

variable {settings : Settings} {l l' : Reconnect} {code : UInt16} {message : String}

theorem infix_refused (code : UInt16) (message : String) :
    "PERMANENT".toList <:+:
      ("PERMANENT relay refused: " ++ toString code.toNat ++ " " ++ message).toList := by
  have hfront : "PERMANENT".toList <+: "PERMANENT relay refused: ".toList := by
    decide +kernel
  rw [String.append_assoc, String.append_assoc, String.toList_append]
  exact (hfront.trans (List.prefix_append _ _)).isInfix

theorem isPermanent_of_infix {debug : ControlFrame → String} {e : RunError}
    (h : "PERMANENT".toList <:+: (e.message debug).toList) : e.isPermanent debug = true :=
  decide_eq_true h

theorem isPermanent_refused (debug : ControlFrame → String) (code : UInt16) (message : String) :
    (RunError.session (.refused code message)).isPermanent debug = true := by
  apply isPermanent_of_infix
  exact infix_refused code message

theorem Reconnect.refusal_next (attempts : UInt32) (backoff : Option Nat) :
    (next attempts backoff).refusal = none := by
  cases backoff <;> rfl

theorem Reconnect.refusal_afterSession {result : Except RunError Unit} :
    (l.afterSession settings result).refusal = some (code, message) ↔
      result = .error (.session (.refused code message)) := by
  constructor
  · intro h
    unfold afterSession at h
    split at h
    · rw [refusal_next] at h
      cases h
    · split at h
      · unfold refusal at h
        split at h
        · rename_i hpc
          cases h
          cases hpc
          rfl
        · cases h
      · dsimp only at h
        split at h
        · cases h
        · rw [refusal_next] at h
          cases h
  · rintro rfl
    rw [afterSession, if_pos (isPermanent_refused _ _ _)]
    rfl

theorem Reconnect.refusal_afterStep {session : Session} :
    (l.afterStep settings session).refusal = some (code, message) ↔
      session.pc = .ended (.error (.refused code message)) := by
  unfold afterStep
  split
  · rename_i result hpc
    rw [refusal_afterSession, hpc]
    cases result with
    | ok _ => simp [Except.mapError]
    | error e => simp [Except.mapError]
  · rename_i hpc
    constructor
    · rintro ⟨⟩
    · intro hended
      exact absurd hended (hpc _)

theorem afterReply_refused {r : ByteSource} :
    afterReply r = .ended (.error (.refused code message)) ↔
      (readFrame r).1 = .ok (.error code message) := by
  unfold afterReply
  split <;> simp_all

theorem Session.step_refused {s s' : Session} {input : SessionInput}
    (hstep : s.step input = some s') (h : s'.pc = .ended (.error (.refused code message))) :
    ∃ r, input = .replied r ∧ (readFrame r).1 = .ok (.error code message) := by
  cases input with
  | replied r =>
      simp only [Session.step] at hstep
      split at hstep <;> cases hstep
      exact ⟨r, rfl, afterReply_refused.mp h⟩
  | wrote fault =>
      simp only [Session.step] at hstep
      split at hstep
      · split at hstep <;> cases hstep <;> cases h
      · cases hstep
  | ticked fault =>
      simp only [Session.step] at hstep
      split at hstep
      · rename_i hpc
        split at hstep <;> cases hstep
        · simp [hpc] at h
        · cases h
      · cases hstep
  | drained n =>
      simp only [Session.step] at hstep
      split at hstep
      · rename_i hpc
        cases hstep
        simp [hpc] at h
      · cases hstep
        cases h
      · cases hstep
  | muxClosed =>
      simp only [Session.step] at hstep
      split at hstep <;> cases hstep <;> cases h

theorem Reconnect.refusal_step {input : LoopInput} (hstep : l.step settings input = some l')
    (h : l'.refusal = some (code, message)) :
    ∃ r, input = .session (.replied r) ∧ (readFrame r).1 = .ok (.error code message) := by
  cases input with
  | slept =>
      simp only [step] at hstep
      split at hstep <;> cases hstep
      cases h
  | ctrlC =>
      simp only [step] at hstep
      split at hstep <;> cases hstep
      cases h
  | bindFailed text =>
      simp only [step] at hstep
      split at hstep <;> cases hstep
      cases refusal_afterSession.mp h
  | connectFailed text =>
      simp only [step] at hstep
      split at hstep <;> cases hstep
      cases refusal_afterSession.mp h
  | connected =>
      simp only [step] at hstep
      split at hstep <;> cases hstep
      cases h
  | session input =>
      simp only [step] at hstep
      split at hstep
      · obtain ⟨session', hsession, rfl⟩ := Option.map_eq_some_iff.mp hstep
        obtain ⟨r, rfl, hread⟩ := Session.step_refused hsession (refusal_afterStep.mp h)
        exact ⟨r, rfl, hread⟩
      · cases hstep

end Refusal

end Seamless.Client
