import Seamless.Relay.ControlStream
import Seamless.Relay.NameExclusion

/-!
Is a refused client told so? Every point at which `handle_client`, `serve_http` and
`serve_tcp` turn a registration down is an event of a run with its cause. Behind
most of them stands an `Error` frame; five return without a word.
-/

namespace Seamless.Relay

open Seamless.Common
open Seamless.Library
open Seamless.Library.NetAddr
open Seamless.Library.TransitionSystem

/-- Why a registration that arrived in time is turned down. -/
inductive Cause where
  | malformed
  | oversized
  | notRegister
  | version
  | auth
  | rate
  | perIpCap
  | globalCap
  | subdomainRule
  | subdomainTaken
  | portUnavailable
  | noFreePort
  deriving Repr, DecidableEq

/-- The causes for which the code returns an error and writes no frame. -/
def Cause.isSilent : Cause → Bool
  | .malformed | .oversized | .notRegister | .portUnavailable | .noFreePort => true
  | _ => false

def Cause.isProtocolError : Cause → Bool
  | .malformed | .oversized | .notRegister | .version => true
  | _ => false

def Cause.isInUse : Cause → Bool
  | .subdomainTaken | .portUnavailable | .noFreePort => true
  | _ => false

/-- The step `label` of call `i` turns its registration down. -/
inductive TurnsDown (cfg : Config) (i : MuxId) (s : System) : Cause → Label → Prop
  | malformed {h : Handler} {r : ByteSource} {e : BincodeError}
      (hget : s.handlers[i]? = some h) (hpc : h.pc = .awaitRegister)
      (hframe : (readFrame r).1 = .error (.decode e)) :
      TurnsDown cfg i s .malformed (.handler i (.received (.stream r)))
  | oversized {h : Handler} {r : ByteSource} {size : Nat}
      (hget : s.handlers[i]? = some h) (hpc : h.pc = .awaitRegister)
      (hframe : (readFrame r).1 = .error (.tooLarge size)) :
      TurnsDown cfg i s .oversized (.handler i (.received (.stream r)))
  | notRegister {h : Handler} {r : ByteSource} {frame : ControlFrame}
      (hget : s.handlers[i]? = some h) (hpc : h.pc = .awaitRegister)
      (hframe : (readFrame r).1 = .ok frame)
      (hother : ∀ version token kind, frame ≠ .register version token kind) :
      TurnsDown cfg i s .notRegister (.handler i (.received (.stream r)))
  | version {h : Handler} {r : ByteSource} {version : UInt8} {token : Option String}
      {kind : TunnelKind} (hget : s.handlers[i]? = some h) (hpc : h.pc = .awaitRegister)
      (hframe : (readFrame r).1 = .ok (.register version token kind))
      (hversion : version ≠ protocolVersion) :
      TurnsDown cfg i s .version (.handler i (.received (.stream r)))
  | auth {h : Handler} {r : ByteSource} {token : Option String} {kind : TunnelKind}
      {e : AuthError} (hget : s.handlers[i]? = some h) (hpc : h.pc = .awaitRegister)
      (hframe : (readFrame r).1 = .ok (.register protocolVersion token kind))
      (htoken : AuthPolicy.check cfg.subtle s.shared.lists.auth token = .error e) :
      TurnsDown cfg i s .auth (.handler i (.received (.stream r)))
  | rate {h : Handler} {kind : TunnelKind} {now : Nat} (hget : s.handlers[i]? = some h)
      (hpc : h.pc = .rateLimiting kind)
      (hlimited : (checkAndRecord cfg s.shared.rates h.clientIp now).1 = false) :
      TurnsDown cfg i s .rate (.handler i (.instant now))
  | perIpCap {h : Handler} {kind : TunnelKind} (hget : s.handlers[i]? = some h)
      (hpc : h.pc = .perIpCheck kind) (hlimit : cfg.maxTunnelsPerIp ≠ 0)
      (hfull : cfg.maxTunnelsPerIp.toNat ≤ s.shared.countForIp h.clientIp) :
      TurnsDown cfg i s .perIpCap (.handler i .proceed)
  | globalCap {h : Handler} {kind : TunnelKind} (hget : s.handlers[i]? = some h)
      (hpc : h.pc = .globalCheck kind) (hlimit : cfg.maxTunnels ≠ 0)
      (hfull : cfg.maxTunnels.toNat ≤ s.shared.countAll) :
      TurnsDown cfg i s .globalCap (.handler i .proceed)
  | subdomainRule {h : Handler} {requested random : String} {unixNow : Int} {now : Nat}
      {reply : ControlFrame} (hget : s.handlers[i]? = some h)
      (hpc : h.pc = .serve (.http (some requested)))
      (hcheck : checkRequested cfg s.shared.lists requested = .error reply) :
      TurnsDown cfg i s .subdomainRule (.handler i (.named random unixNow now))
  | subdomainTaken {h : Handler} {entry : TunnelEntry} (hget : s.handlers[i]? = some h)
      (hpc : h.pc = .httpInsert entry)
      (htaken : (s.shared.tunnels.lookup entry.subdomain).isSome) :
      TurnsDown cfg i s .subdomainTaken (.handler i .proceed)
  | portUnavailable {h : Handler} {port : UInt16} (hget : s.handlers[i]? = some h)
      (hpc : h.pc = .tcpBind port) :
      TurnsDown cfg i s .portUnavailable (.handler i (.bound false))
  | noFreePort {h : Handler} (hget : s.handlers[i]? = some h) (hpc : h.pc = .tcpPick 0) :
      TurnsDown cfg i s .noFreePort (.handler i .proceed)

/-- The frame that a call has to write next. -/
def Pc.outgoing (cfg : Config) : Pc → Option ControlFrame
  | .refusing reply | .httpRefusing reply => some reply
  | .announcing endpoint => some (.registered (endpoint.url cfg))
  | _ => none

/-- The writes of call `i` on its control stream succeed. -/
def WritesSucceed (cfg : Config) (i : MuxId) (s : System) : Label → Prop
  | .handler j (.wrote fault) => j = i → ∀ h ∈ s.handlers[i]?, ∀ frame ∈ h.pc.outgoing cfg,
      (h.write fault frame).1.isOk = true
  | _ => True

instance (cfg : Config) (i : MuxId) :
    ∀ (s : System) (label : Label), Decidable (WritesSucceed cfg i s label)
  | s, .handler j (.wrote fault) =>
      inferInstanceAs (Decidable (j = i → ∀ h ∈ s.handlers[i]?, ∀ frame ∈ h.pc.outgoing cfg,
        (h.write fault frame).1.isOk = true))
  | _, .handler _ .proceed | _, .handler _ (.received _) | _, .handler _ (.instant _)
  | _, .handler _ (.named _ _ _) | _, .handler _ (.picked _) | _, .handler _ (.bound _)
  | _, .handler _ (.clocks _ _) | _, .handler _ .disconnected | _, .handler _ (.ticked _)
  | _, .handler _ (.drained _)
  | _, .connect _ | _, .sweep _ | _, .shutdown | _, .reloadAuth _ | _, .reloadBlocklist _
  | _, .reloadDenylist _ | _, .disconnectTunnel _ | _, .bulkDisconnect _
  | _, .setCustomDomain _ _ | _, .removeCustomDomain _ | _, .adminStep _ | _, .lookupDomain _
  | _, .routeDomain _ => .isTrue trivial

/-- The client was sent one `Error` frame and nothing else, with the code that the
protocol gives for the cause. -/
def Told (cause : Cause) (h : Handler) : Prop :=
  ∃ code message, h.control = frameBytes (.error code message) ∧
    (cause.isProtocolError → code = 400) ∧ (cause.isInUse → code = 409)

/-- A frame that is a proper answer to the cause. -/
def Cause.Answers (cause : Cause) : ControlFrame → Prop
  | .error code _ => (cause.isProtocolError → code = 400) ∧ (cause.isInUse → code = 409)
  | _ => False

/-- Where a call can be once it was turned down: it has its answer to write, has
written it, or has returned in silence. -/
inductive TurnedDown (cause : Cause) (h : Handler) : Prop
  | answering {reply : ControlFrame} (hloud : cause.isSilent = false)
      (hpc : h.pc.refusal = some reply) (hreply : cause.Answers reply) (hcontrol : h.control = [])
  | answered {reply : ControlFrame} (hloud : cause.isSilent = false)
      (hpc : h.pc.isReturned) (hreply : cause.Answers reply)
      (hcontrol : h.control = frameBytes reply)
  | silent (hsilent : cause.isSilent) (hpc : h.pc.isReturned) (hcontrol : h.control = [])

section Event

variable {cfg : Config} {i : MuxId} {s s' : System} {cause : Cause} {label : Label}
  {h : Handler} {input : Input}

theorem turnedDown_answering (pc : Pc) {reply : ControlFrame} (hget : s.handlers[i]? = some h)
    (hcontrol : h.control = []) (hloud : cause.isSilent = false)
    (hpc : pc.refusal = some reply) (hreply : cause.Answers reply)
    (hown : ∀ h' sh', h.step cfg i s.shared input = some (h', sh') → h' = h.goto pc)
    (hstep : s.step cfg (.handler i input) = some s') : s'.At (TurnedDown cause) i :=
  ⟨h.goto pc, System.handler_goto hget hstep hown, .answering hloud hpc hreply hcontrol⟩

theorem turnedDown_silent (result : Except HandleError Unit) (hget : s.handlers[i]? = some h)
    (hcontrol : h.control = []) (hsilent : cause.isSilent)
    (hown : ∀ h' sh', h.step cfg i s.shared input = some (h', sh') →
      h' = h.goto (.returned result))
    (hstep : s.step cfg (.handler i input) = some s') : s'.At (TurnedDown cause) i :=
  ⟨h.goto (.returned result), System.handler_goto hget hstep hown, .silent hsilent rfl hcontrol⟩

theorem Cause.answers_error (hprotocol : cause.isProtocolError = false)
    (hinUse : cause.isInUse = false) (code : UInt16) (message : String) :
    cause.Answers (.error code message) := by
  constructor
  · simp [hprotocol]
  · simp [hinUse]

theorem answers_authRefusal (e : AuthError) : Cause.auth.Answers (authRefusal e) := by
  cases e <;> exact Cause.answers_error rfl rfl _ _

theorem answers_checkRequested {lists : Lists} {requested : String} {reply : ControlFrame}
    (hcheck : checkRequested cfg lists requested = .error reply) :
    Cause.subdomainRule.Answers reply := by
  have hrefusal := isRefusal_of_checkRequested hcheck
  cases reply with
  | error code message => exact Cause.answers_error rfl rfl code message
  | _ => exact hrefusal.elim

theorem TurnsDown.turnedDown (hdown : TurnsDown cfg i s cause label)
    (hspoken : s.EachHandler fun _ h => h.Spoken) (hstep : s.step cfg label = some s') :
    s'.At (TurnedDown cause) i := by
  have hquiet : ∀ {h : Handler}, s.handlers[i]? = some h → h.pc.Mute → h.control = [] :=
    fun hget hmute => (hspoken i _ hget).mute hmute
  cases hdown with
  | @malformed h r e hget hpc hframe =>
      have hcontrol := hquiet hget (by simp [hpc, Pc.Mute])
      refine turnedDown_silent (.error (.registerFrame (.decode e))) hget hcontrol rfl
        ?_ hstep
      simp [Handler.step, hpc, afterRegister, hframe]
  | @oversized h r size hget hpc hframe =>
      have hcontrol := hquiet hget (by simp [hpc, Pc.Mute])
      refine turnedDown_silent (.error (.registerFrame (.tooLarge size))) hget hcontrol
        rfl ?_ hstep
      simp [Handler.step, hpc, afterRegister, hframe]
  | @notRegister h r frame hget hpc hframe hother =>
      have hcontrol := hquiet hget (by simp [hpc, Pc.Mute])
      refine turnedDown_silent (.error (.expectedRegister frame)) hget hcontrol rfl
        ?_ hstep
      cases frame with
      | register version token kind => exact absurd rfl (hother version token kind)
      | _ => simp [Handler.step, hpc, afterRegister, hframe]
  | @version h r version token kind hget hpc hframe hversion =>
      have hcontrol := hquiet hget (by simp [hpc, Pc.Mute])
      refine turnedDown_answering (.refusing (versionRefusal version)) hget hcontrol rfl rfl
        ⟨fun _ => rfl, by rintro ⟨⟩⟩ ?_ hstep
      simp [Handler.step, hpc, afterRegister, hframe, hversion]
  | @auth h r token kind e hget hpc hframe htoken =>
      have hcontrol := hquiet hget (by simp [hpc, Pc.Mute])
      refine turnedDown_answering (.refusing (authRefusal e)) hget hcontrol rfl rfl
        (answers_authRefusal e) ?_ hstep
      simp [Handler.step, hpc, afterRegister, hframe, htoken]
  | @rate h kind now hget hpc hlimited =>
      have hcontrol := hquiet hget (by simp [hpc, Pc.Mute])
      refine turnedDown_answering (.refusing rateRefusal) hget hcontrol rfl rfl
        (Cause.answers_error rfl rfl _ _) ?_ hstep
      simp [Handler.step, hpc, hlimited]
  | @perIpCap h kind hget hpc hlimit hfull =>
      have hcontrol := hquiet hget (by simp [hpc, Pc.Mute])
      refine turnedDown_answering (.refusing (perIpRefusal cfg)) hget hcontrol rfl rfl
        (Cause.answers_error rfl rfl _ _) ?_ hstep
      simp [Handler.step, hpc, hlimit, afterPerIpCheck, hfull]
  | @globalCap h kind hget hpc hlimit hfull =>
      have hcontrol := hquiet hget (by simp [hpc, Pc.Mute])
      refine turnedDown_answering (.refusing (capacityRefusal cfg)) hget hcontrol rfl rfl
        (Cause.answers_error rfl rfl _ _) ?_ hstep
      simp [Handler.step, hpc, hlimit, afterGlobalCheck, hfull]
  | @subdomainRule h requested random unixNow now reply hget hpc hcheck =>
      have hcontrol := hquiet hget (by simp [hpc, Pc.Mute])
      refine turnedDown_answering (.refusing reply) hget hcontrol rfl rfl
        (answers_checkRequested hcheck) ?_ hstep
      simp [Handler.step, hpc, afterNaming, hcheck]
  | @subdomainTaken h entry hget hpc htaken =>
      have hcontrol := hquiet hget (by simp [hpc, Pc.Mute])
      refine turnedDown_answering (.httpRefusing (takenRefusal entry.subdomain)) hget
        hcontrol rfl rfl ⟨by rintro ⟨⟩, fun _ => rfl⟩ ?_ hstep
      simp [Handler.step, hpc, htaken]
  | @portUnavailable h port hget hpc =>
      have hcontrol := hquiet hget (by simp [hpc, Pc.Mute])
      refine turnedDown_silent (.error (.bindFailed port)) hget hcontrol rfl ?_ hstep
      simp [Handler.step, hpc]
  | @noFreePort h hget hpc =>
      have hcontrol := hquiet hget (by simp [hpc, Pc.Mute])
      refine turnedDown_silent (.error .noFreePort) hget hcontrol rfl ?_ hstep
      simp [Handler.step, hpc]

end Event

section Run

variable {cfg : Config} {lists : Lists} {labels : List Label} {i : MuxId} {s s' : System}
  {cause : Cause} {label : Label} {h h' : Handler} {sh sh' : Shared} {input : Input}

theorem Handler.write_control {fault : Fault} {frame : ControlFrame} (hcontrol : h.control = [])
    (hok : (h.write fault frame).1.isOk = true) :
    (h.write fault frame).2.control = frameBytes frame := by
  have hwrite : (writeFrame ⟨h.control, fault⟩ frame).1 = .ok () := by
    cases hresult : (writeFrame ⟨h.control, fault⟩ frame).1 with
    | ok _ => rfl
    | error e =>
        simp only [Handler.write, hresult] at hok
        cases hok
  obtain ⟨accepted, -, hwritten, hall⟩ := writeFrame_spec ⟨h.control, fault⟩ frame
  obtain ⟨rfl, -⟩ := hall hwrite
  simpa [Handler.write, hcontrol] using hwritten

theorem HandlerStep.refusal {reply : ControlFrame}
    (hstep : HandlerStep cfg i sh h input h' sh') (hpc : h.pc.refusal = some reply) :
    ∃ fault, input = .wrote fault ∧
      h' = (h.write fault reply).2.goto (.returned (.error (.refused reply))) := by
  have hat : h.pc = .refusing reply ∨ h.pc = .httpRefusing reply := by
    unfold Pc.refusal at hpc
    split at hpc <;> simp_all
  cases hstep with
  | refused hpc' =>
      obtain rfl : _ = reply := by simpa [hpc'] using hat
      exact ⟨_, rfl, rfl⟩
  | takenReply hpc' =>
      obtain rfl : _ = reply := by simpa [hpc'] using hat
      exact ⟨_, rfl, rfl⟩
  | giveUp hearly => rcases hat with hat | hat <;> simp [hat, Pc.Early, Pc.Searching] at hearly
  | advance _ hearly => rcases hat with hat | hat <;> simp [hat, Pc.Early] at hearly
  | refuse _ hearly => rcases hat with hat | hat <;> simp [hat, Pc.Early] at hearly
  | search hsearching => rcases hat with hat | hat <;> simp [hat, Pc.Searching] at hsearching
  | bound hbinding => rcases hat with hat | hat <;> simp [hat, Pc.binding] at hbinding
  | _ => simp_all

theorem HandlerStep.turnedDown_of_writes (hstep : HandlerStep cfg i sh h input h' sh')
    (hwrites : ∀ fault, input = .wrote fault → ∀ frame ∈ h.pc.outgoing cfg,
      (h.write fault frame).1.isOk = true) (hdown : TurnedDown cause h) :
    TurnedDown cause h' := by
  have hnot := hstep.not_returned
  cases hdown with
  | @answering reply hloud hpc hreply hcontrol =>
      obtain ⟨fault, rfl, rfl⟩ := hstep.refusal hpc
      have houtgoing : h.pc.outgoing cfg = some reply := by
        unfold Pc.refusal at hpc
        split at hpc <;> simp_all [Pc.outgoing]
      have hcontrol' := Handler.write_control hcontrol (hwrites fault rfl reply houtgoing)
      exact .answered hloud rfl hreply hcontrol'
  | answered _ hpc =>
      rw [hnot] at hpc
      cases hpc
  | silent _ hpc =>
      rw [hnot] at hpc
      cases hpc

theorem turnedDown_reached (hrun : Reached cfg (WritesSucceed cfg i) lists labels s)
    (hoccurred : Occurred (System.step cfg) (fun s => TurnsDown cfg i s cause)
      (System.initial lists) labels) : s.At (TurnedDown cause) i := by
  induction hrun with
  | nil => exact absurd hoccurred not_occurred_nil
  | @snoc labels t u a hinit hguard hlast ih =>
      rcases hinit.occurred_snoc_iff.mp hoccurred with hbefore | hnow
      · refine (ih hbefore).step hlast ?_
        rintro h input h' sh' hget rfl hhandler hdown
        refine hhandler.turnedDown_of_writes ?_ hdown
        rintro fault rfl frame hframe
        exact hguard rfl h hget frame hframe
      · exact hnow.turnedDown (spoken_reached hinit) hlast

theorem Cause.Answers.told {reply : ControlFrame} (hreply : cause.Answers reply)
    (hcontrol : h.control = frameBytes reply) : Told cause h := by
  cases reply with
  | error code message => exact ⟨code, message, hcontrol, hreply.1, hreply.2⟩
  | _ => exact hreply.elim

theorem frameBytes_ne_nil (frame : ControlFrame) : frameBytes frame ≠ [] := by
  intro hnil
  have hlength := length_frameBytes frame
  rw [hnil, List.length_nil] at hlength
  omega

/-- A client whose registration is turned down is told so, with the code of the
protocol, exactly when the cause is none of the five silent ones. -/
theorem refused_told_iff (hrun : Reached cfg (WritesSucceed cfg i) lists labels s)
    (hdown : Occurred (System.step cfg) (fun s => TurnsDown cfg i s cause)
      (System.initial lists) labels)
    (hget : s.handlers[i]? = some h) (hreturned : h.pc.isReturned = true) :
    Told cause h ↔ cause.isSilent = false := by
  obtain ⟨g, hget', hg⟩ := turnedDown_reached hrun hdown
  obtain rfl : h = g := Option.some.inj (hget.symm.trans hget')
  cases hg with
  | answering _ hpc =>
      unfold Pc.refusal at hpc
      split at hpc <;> simp_all [Pc.isReturned]
  | answered hloud _ hreply hcontrol => exact iff_of_true (hreply.told hcontrol) hloud
  | silent hsilent _ hcontrol =>
      refine iff_of_false ?_ (by simp [hsilent])
      rintro ⟨code, message, hframe, -⟩
      rw [hcontrol] at hframe
      exact frameBytes_ne_nil _ hframe.symm

end Run

/-- A client connects and sends `frame` first. -/
def firstFrame (frame : ControlFrame) : List Label :=
  [.connect documentationIp, .handler 0 .proceed,
    .handler 0 (.received (.stream (.ofList (frameBytes frame))))]

theorem exec_connected :
    exec (System.step (.unlimited "relay.test")) (System.initial .disabled)
        [.connect documentationIp, .handler 0 .proceed] =
      some ⟨.initial .disabled, [⟨documentationIp, .awaitRegister, []⟩], [], [], []⟩ := rfl

theorem refused_told_version :
    ∃ s h, Reached (.unlimited "relay.test") (WritesSucceed (.unlimited "relay.test") 0) .disabled
        (firstFrame (.register 2 none (.tcp 0)) ++ [.handler 0 (.wrote none)]) s ∧
      s.handlers[0]? = some h ∧ Told .version h := by
  have hexec : (execGuarded (System.step (.unlimited "relay.test"))
      (WritesSucceed (.unlimited "relay.test") 0) (System.initial .disabled)
      (firstFrame (.register 2 none (.tcp 0)) ++ [.handler 0 (.wrote none)])).map
        (fun s => (s.handlers[0]?).map fun h => h.pc.isReturned) = some (some true) := by
    decide +kernel
  obtain ⟨s, hrun, hreturned⟩ := exists_run hexec
  obtain ⟨h, hget, hpc⟩ := Option.map_eq_some_iff.mp hreturned
  have hframe : (readFrame (.ofList (frameBytes (.register 2 none (.tcp 0))))).1 =
      .ok (.register 2 none (.tcp 0)) := by
    decide +kernel
  have hdown : Occurred (System.step (.unlimited "relay.test"))
      (fun s => TurnsDown (.unlimited "relay.test") 0 s .version) (System.initial .disabled)
      (firstFrame (.register 2 none (.tcp 0)) ++ [.handler 0 (.wrote none)]) :=
    ⟨[.connect documentationIp, .handler 0 .proceed], _, [.handler 0 (.wrote none)], _, rfl,
      exec_connected, .version rfl rfl hframe (by decide)⟩
  exact ⟨s, h, hrun, hget, (refused_told_iff hrun hdown hget hpc).mpr rfl⟩

/-- The first frame is a `Ping`: the relay hangs up without a word. -/
theorem not_refused_told_ping :
    ¬ ∀ (cfg : Config) (lists : Lists) (labels : List Label) (s : System) (i : MuxId)
      (h : Handler) (cause : Cause), Reached cfg (WritesSucceed cfg i) lists labels s →
      Occurred (System.step cfg) (fun s => TurnsDown cfg i s cause) (System.initial lists)
        labels →
      s.handlers[i]? = some h → h.pc.isReturned = true → Told cause h := by
  intro hall
  have hexec : (execGuarded (System.step (.unlimited "relay.test"))
      (WritesSucceed (.unlimited "relay.test") 0) (System.initial .disabled)
      (firstFrame .ping)).map
        (fun s => (s.handlers[0]?).map fun h => (h.pc.isReturned, h.control)) =
        some (some (true, [])) := by
    decide +kernel
  obtain ⟨s, hrun, hreturned⟩ := exists_run hexec
  obtain ⟨h, hget, hfacts⟩ := Option.map_eq_some_iff.mp hreturned
  obtain ⟨hpc, hcontrol⟩ := Prod.mk.inj hfacts
  have hframe : (readFrame (.ofList (frameBytes .ping))).1 = .ok .ping := by
    decide +kernel
  have hdown : Occurred (System.step (.unlimited "relay.test"))
      (fun s => TurnsDown (.unlimited "relay.test") 0 s .notRegister) (System.initial .disabled)
      (firstFrame .ping) :=
    ⟨[.connect documentationIp, .handler 0 .proceed], _, [], _, rfl, exec_connected,
      .notRegister rfl rfl hframe nofun⟩
  obtain ⟨code, message, hframe, -⟩ := hall _ _ _ s 0 h .notRegister hrun hdown hget hpc
  rw [hcontrol] at hframe
  exact frameBytes_ne_nil _ hframe.symm

end Seamless.Relay
