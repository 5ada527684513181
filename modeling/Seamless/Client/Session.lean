import Seamless.Common.FrameCodec
import Seamless.Library.TransitionSystem

/-!
The client side: `run_session` from the opening of the control stream on, with
its control task, and `handle_incoming` for one data stream.
-/

namespace Seamless.Client

open Seamless.Common
open Seamless.Library.ByteStream
open Seamless.Library.TransitionSystem

inductive SessionError where
  | sendingRegister (e : CodecError)
  | awaitingReply (e : CodecError)
  | refused (code : UInt16) (message : String)
  | unexpectedReply (frame : ControlFrame)
  deriving Repr, DecidableEq

/-- Where `run_session` stands. In `serving` the control task runs beside the
accept loop; in `accepting` it has ended and the accept loop goes on. -/
inductive SessionPc where
  | registering
  | awaitingReply
  | serving (publicUrl : String)
  | accepting (publicUrl : String)
  | ended (result : Except SessionError Unit)

/-- `control` is what the client has put on its control stream. -/
structure Session where
  token : Option String
  kind : TunnelKind
  pc : SessionPc
  control : List UInt8

def Session.opened (token : Option String) (kind : TunnelKind) : Session :=
  ⟨token, kind, .registering, []⟩

inductive SessionInput where
  | wrote (fault : Fault)
  | replied (r : ByteSource)
  | ticked (fault : Fault)
  -- `control.read` returns; `none` is an error.
  | drained (n : Option Nat)
  | muxClosed

def Session.write (s : Session) (fault : Fault) (frame : ControlFrame) :
    Except CodecError Unit × List UInt8 :=
  let outcome := writeFrame ⟨s.control, fault⟩ frame
  (outcome.1, outcome.2.written)

def Session.register (s : Session) : ControlFrame :=
  .register protocolVersion s.token s.kind

def afterReply (r : ByteSource) : SessionPc :=
  match (readFrame r).1 with
  | .error e => .ended (.error (.awaitingReply e))
  | .ok (.registered publicUrl) => .serving publicUrl
  | .ok (.error code message) => .ended (.error (.refused code message))
  | .ok other => .ended (.error (.unexpectedReply other))

def Session.step (s : Session) : SessionInput → Option Session
  | .wrote fault =>
      match s.pc with
      | .registering =>
          match s.write fault s.register with
          | (.ok _, control) => some { s with pc := .awaitingReply, control := control }
          | (.error e, control) =>
              some { s with pc := .ended (.error (.sendingRegister e)), control := control }
      | _ => none
  | .replied r =>
      match s.pc with
      | .awaitingReply => some { s with pc := afterReply r }
      | _ => none
  | .ticked fault =>
      match s.pc with
      | .serving publicUrl =>
          match s.write fault .ping with
          | (.ok _, control) => some { s with control := control }
          | (.error _, control) => some { s with pc := .accepting publicUrl, control := control }
      | _ => none
  | .drained n =>
      match s.pc, n with
      | .serving _, some (_ + 1) => some s
      | .serving publicUrl, _ => some { s with pc := .accepting publicUrl }
      | _, _ => none
  | .muxClosed =>
      match s.pc with
      | .serving _ | .accepting _ => some { s with pc := .ended (.ok ()) }
      | _ => none

inductive IncomingError where
  | preamble (e : CodecError)
  | expectedNewConn (frame : ControlFrame)
  | dialing
  deriving Repr, DecidableEq

/-- One data stream. `dial` is the local connection, if it can be made; the
result is how the call returns and what the local service receives. -/
def handleIncoming (apex : ByteSource) (dial : Option Fault) :
    Except IncomingError Unit × List UInt8 :=
  match readFrame apex with
  | (.error e, _) => (.error (.preamble e), [])
  | (.ok (.newConn _), apex) =>
      match dial with
      | none => (.error .dialing, [])
      | some fault => (.ok (), ((⟨[], fault⟩ : ByteSink).writeAll apex.content).2.written)
  | (.ok other, _) => (.error (.expectedNewConn other), [])

/-- The preamble is taken off exactly, and everything behind it is passed on. -/
theorem handleIncoming_newConn {apex : ByteSource} {peer : String} {payload : List UInt8}
    (hfits : FrameFits (.newConn peer))
    (hcontent : apex.content = frameBytes (.newConn peer) ++ payload) :
    handleIncoming apex (some none) = (.ok (), payload) := by
  obtain ⟨hvalue, hrest, -⟩ := readFrame_frameBytes hfits hcontent
  rcases hread : readFrame apex with ⟨e | frame, apex'⟩
  · simp [hread] at hvalue
  · simp only [hread, Except.ok.injEq] at hvalue hrest
    subst hvalue
    simp [handleIncoming, hread, hrest, Sink.writeAll]

/-- The prefixes of `[Register, Ping, Ping, …]`. -/
inductive ClientFrames : List ControlFrame → Prop
  | nothing : ClientFrames []
  | register (version : UInt8) (token : Option String) (kind : TunnelKind) (pings : Nat) :
      ClientFrames (.register version token kind :: List.replicate pings .ping)

/-- What a session has said so far fits the place where it stands. -/
structure Session.Spoken (s : Session) : Prop where
  mute : s.pc = .registering → s.control = []
  talking : (s.pc = .awaitingReply ∨ ∃ publicUrl, s.pc = .serving publicUrl) →
    ∃ pings, Wrote (s.register :: List.replicate pings .ping) s.control
  writes : Writes ClientFrames s.control

theorem Session.spoken_opened (token : Option String) (kind : TunnelKind) :
    (Session.opened token kind).Spoken where
  mute := fun _ => rfl
  talking := by simp [Session.opened]
  writes := Wrote.nil.writes .nothing

theorem Session.Spoken.done {s : Session} {pc : SessionPc} {control : List UInt8}
    (hwrites : Writes ClientFrames control) (hmute : pc ≠ .registering)
    (htalking : ¬ (pc = .awaitingReply ∨ ∃ publicUrl, pc = .serving publicUrl)) :
    ({ s with pc := pc, control := control } : Session).Spoken :=
  ⟨fun hpc => absurd hpc hmute, fun hpc => absurd hpc htalking, hwrites⟩

theorem Session.spoken_wrote {s s' : Session} {fault : Fault} (hs : s.Spoken)
    (hstep : s.step (.wrote fault) = some s') : s'.Spoken := by
  simp only [Session.step] at hstep
  split at hstep
  · rename_i hpc
    have hnothing : Wrote [] (⟨s.control, fault⟩ : ByteSink).written := by
      rw [hs.mute hpc]
      exact .nil
    have hwrites : Writes ClientFrames (s.write fault s.register).2 :=
      hnothing.writes_snoc .nothing (.register protocolVersion s.token s.kind 0)
    rcases hwrite : s.write fault s.register with ⟨e | _, control⟩ <;>
      rw [hwrite] at hstep hwrites <;> cases hstep
    · exact .done hwrites (by simp) (by simp)
    · refine ⟨by simp, fun _ => ⟨0, ?_⟩, hwrites⟩
      have hok : (s.write fault s.register).1 = .ok () := by rw [hwrite]
      have hwrote := hnothing.snoc hok
      have hcontrol : (s.write fault s.register).2 = control := by rw [hwrite]
      rw [← hcontrol]
      exact hwrote
  · cases hstep

theorem Session.spoken_ticked {s s' : Session} {fault : Fault} (hs : s.Spoken)
    (hstep : s.step (.ticked fault) = some s') : s'.Spoken := by
  simp only [Session.step] at hstep
  split at hstep
  · rename_i publicUrl hpc
    obtain ⟨pings, hwrote⟩ := hs.talking (.inr ⟨publicUrl, hpc⟩)
    have hmore : (s.register :: List.replicate pings .ping) ++ [ControlFrame.ping] =
        s.register :: List.replicate (pings + 1) .ping := by
      rw [List.cons_append, ← List.replicate_succ']
    have hwrites : Writes ClientFrames (s.write fault .ping).2 :=
      Wrote.writes_snoc (w := ⟨s.control, fault⟩) hwrote
        (.register protocolVersion s.token s.kind pings)
        (hmore ▸ .register protocolVersion s.token s.kind (pings + 1))
    rcases hwrite : s.write fault .ping with ⟨e | _, control⟩ <;>
      rw [hwrite] at hstep hwrites <;> cases hstep
    · exact .done hwrites (by simp) (by simp)
    · refine ⟨by simp [hpc], fun _ => ⟨pings + 1, ?_⟩, hwrites⟩
      have hok : (s.write fault .ping).1 = .ok () := by rw [hwrite]
      have hnext := Wrote.snoc (w := ⟨s.control, fault⟩) hwrote hok
      have hcontrol : (s.write fault .ping).2 = control := by rw [hwrite]
      rw [hmore] at hnext
      rw [← hcontrol]
      exact hnext
  · cases hstep

theorem Session.spoken_replied {s s' : Session} {r : ByteSource} (hs : s.Spoken)
    (hstep : s.step (.replied r) = some s') : s'.Spoken := by
  simp only [Session.step] at hstep
  split at hstep
  · rename_i hpc
    cases hstep
    refine ⟨?_, fun _ => hs.talking (.inl hpc), hs.writes⟩
    intro hregistering
    simp only [afterReply] at hregistering
    split at hregistering <;> cases hregistering
  · cases hstep

theorem Session.Spoken.step {s s' : Session} {input : SessionInput} (hs : s.Spoken)
    (hstep : s.step input = some s') : s'.Spoken := by
  cases input with
  | wrote fault => exact spoken_wrote hs hstep
  | replied r => exact spoken_replied hs hstep
  | ticked fault => exact spoken_ticked hs hstep
  | drained n =>
      simp only [Session.step] at hstep
      split at hstep
      · cases hstep
        exact hs
      · cases hstep
        exact .done hs.writes (by simp) (by simp)
      · cases hstep
  | muxClosed =>
      simp only [Session.step] at hstep
      split at hstep <;> cases hstep <;> exact .done hs.writes (by simp) (by simp)

/-- In every run of a session, whatever the relay and the streams do. -/
theorem session_writes {token : Option String} {kind : TunnelKind}
    {inputs : List SessionInput} {s : Session}
    (hrun : FreeRun Session.step (.opened token kind) inputs s) :
    Writes ClientFrames s.control := by
  have hspoken : s.Spoken :=
    hrun.invariant (Session.spoken_opened token kind) fun _ _ _ hs _ hstep => hs.step hstep
  exact hspoken.writes

end Seamless.Client
