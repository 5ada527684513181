import Seamless.Common.FrameCodec
import Seamless.Relay.Registry

/-!
`handle_client` with `serve_http` and `serve_tcp`, cut at the points where other
tasks may run. A program counter says where a call stands; what the environment
decides at each point (bytes, clocks, random choices, I/O failures) comes in as
an input.
-/

namespace Seamless.Relay

open Seamless.Common
open Seamless.Library
open Seamless.Library.NetAddr
open Seamless.Library.ByteStream

/-- What a call registers: a name, or a port. -/
inductive Endpoint where
  | http (sub : String)
  | tcp (port : UInt16)
  deriving Repr, DecidableEq

/-- `tunnel_key` of a TCP tunnel. -/
def tcpKey (port : UInt16) : String := "tcp:" ++ toString port.toNat

def Endpoint.key : Endpoint → String
  | .http sub => sub
  | .tcp port => tcpKey port

def Endpoint.url (cfg : Config) : Endpoint → String
  | .http sub => publicUrl cfg sub
  | .tcp port => tcpUrl cfg port

inductive HandleError where
  | denylisted
  | droppedBeforeControl
  | registerFrame (e : CodecError)
  | slowLoris
  | registrationTimeout
  | expectedRegister (frame : ControlFrame)
  | refused (reply : ControlFrame)
  | bindFailed (port : UInt16)
  | noFreePort
  | announce (endpoint : Endpoint) (e : CodecError)
  deriving Repr, DecidableEq

/-- Where a call of `handle_client` stands. -/
inductive Pc where
  | start
  | awaitRegister
  | rateLimiting (kind : TunnelKind)
  | perIpCheck (kind : TunnelKind)
  | globalCheck (kind : TunnelKind)
  | serve (kind : TunnelKind)
  | refusing (reply : ControlFrame)
  | httpInsert (entry : TunnelEntry)
  -- Writing the 409 reply, with the `tunnels` mutex held.
  | httpRefusing (reply : ControlFrame)
  -- The loop of `bind_random_port`, with the number of tries left.
  | tcpPick (tries : Nat)
  | tcpProbe (port : UInt16) (tries : Nat)
  | tcpBind (port : UInt16)
  | tcpInsertPort (port : UInt16)
  | announcing (endpoint : Endpoint)
  | tcpInsertEntry (port : UInt16)
  | looping (endpoint : Endpoint)
  -- Out of the loop; the listener task is told to stop.
  | tcpShutdown (port : UInt16)
  | tcpRemovePort (port : UInt16)
  | cleaning (endpoint : Endpoint)
  | returned (result : Except HandleError Unit)

def Pc.isReturned : Pc → Bool
  | .returned _ => true
  | _ => false

/-- One call of `handle_client`. `control` is what the relay has put on the
control stream. -/
structure Handler where
  client : IpAddr
  pc : Pc
  control : List UInt8

def Handler.accepted (client : IpAddr) : Handler := ⟨client, .start, []⟩

def Handler.clientIp (h : Handler) : String := h.client.toString

def Handler.goto (h : Handler) (pc : Pc) : Handler := { h with pc := pc }

inductive RegisterRead where
  | dropped
  | slowLoris
  | timedOut
  | stream (r : ByteSource)

inductive Input where
  | proceed
  | received (read : RegisterRead)
  | instant (now : Nat)
  -- The clocks, and a generated name in case one is needed.
  | named (random : String) (unixNow : Int) (now : Nat)
  | picked (port : UInt16)
  | bound (ok : Bool)
  | wrote (fault : Fault)
  | clocks (unixNow : Int) (now : Nat)
  | disconnected
  | ticked (fault : Fault)
  -- `control.read` returns; `none` is an error.
  | drained (n : Option Nat)

def Handler.write (h : Handler) (fault : Fault) (frame : ControlFrame) :
    Except CodecError Unit × Handler :=
  let outcome := writeFrame ⟨h.control, fault⟩ frame
  (outcome.1, { h with control := outcome.2.written })

@[simp] theorem Handler.goto_pc (h : Handler) (pc : Pc) : (h.goto pc).pc = pc := rfl

@[simp] theorem Handler.goto_client (h : Handler) (pc : Pc) :
    (h.goto pc).client = h.client := rfl

@[simp] theorem Handler.goto_control (h : Handler) (pc : Pc) :
    (h.goto pc).control = h.control := rfl

@[simp] theorem Handler.write_pc (h : Handler) (fault : Fault) (frame : ControlFrame) :
    (h.write fault frame).2.pc = h.pc := rfl

@[simp] theorem Handler.write_client (h : Handler) (fault : Fault) (frame : ControlFrame) :
    (h.write fault frame).2.client = h.client := rfl

def afterRegister (cfg : Config) (lists : Lists) : RegisterRead → Pc
  | .dropped => .returned (.error .droppedBeforeControl)
  | .slowLoris => .returned (.error .slowLoris)
  | .timedOut => .returned (.error .registrationTimeout)
  | .stream r =>
      match (readFrame r).1 with
      | .error e => .returned (.error (.registerFrame e))
      | .ok (.register version token kind) =>
          if version ≠ protocolVersion then .refusing (versionRefusal version)
          else
            match AuthPolicy.check cfg.subtle lists.auth token with
            | .error e => .refusing (authRefusal e)
            | .ok _ => .rateLimiting kind
      | .ok other => .returned (.error (.expectedRegister other))

def afterPerIpCheck (cfg : Config) (sh : Shared) (ip : String) (kind : TunnelKind) : Pc :=
  if cfg.maxTunnelsPerIp.toNat ≤ sh.countForIp ip then .refusing (perIpRefusal cfg)
  else .globalCheck kind

def afterGlobalCheck (cfg : Config) (sh : Shared) (kind : TunnelKind) : Pc :=
  if cfg.maxTunnels.toNat ≤ sh.countAll then .refusing (capacityRefusal cfg)
  else .serve kind

/-- The head of `serve_http`: name checks, then the entry. -/
def afterNaming (cfg : Config) (i : MuxId) (sh : Shared) (h : Handler)
    (subdomain : Option String) (random : String) (unixNow : Int) (now : Nat) : Option Pc :=
  match subdomain with
  | some requested =>
      match checkRequested cfg sh.lists requested with
      | .error reply => some (.refusing reply)
      | .ok _ => some (.httpInsert (.new i requested h.clientIp unixNow now))
  | none =>
      if isRandomSubdomain cfg.subdomainLength random then
        some (.httpInsert (.new i random h.clientIp unixNow now))
      else none

def Endpoint.exit : Endpoint → Pc
  | .http sub => .cleaning (.http sub)
  | .tcp port => .tcpShutdown port

def Endpoint.announced : Endpoint → Pc
  | .http sub => .looping (.http sub)
  | .tcp port => .tcpInsertEntry port

/-- The receiver of the disconnect channel resolves when the signal was sent, or
when the sender went away with the entry. -/
def disconnectReady (sh : Shared) (i : MuxId) (endpoint : Endpoint) : Bool :=
  sh.signalled.contains i || sh.holder endpoint.key != some i

/-- The state after a failed `Registered` write: the locals go out of scope, and
with them the listener. -/
def Endpoint.abandon (sh : Shared) : Endpoint → Shared
  | .http _ => sh
  | .tcp port => sh.dropListener port

/-- One step of handler `i`. `none` when the step is not enabled. -/
def Handler.step (cfg : Config) (i : MuxId) (sh : Shared) (h : Handler) :
    Input → Option (Handler × Shared)
  | .proceed =>
      match h.pc with
      | .start =>
          match sh.lists.denylist with
          | some entries =>
              if isDenied entries h.client then
                some (h.goto (.returned (.error .denylisted)), sh)
              else some (h.goto .awaitRegister, sh)
          | none => some (h.goto .awaitRegister, sh)
      | .perIpCheck kind =>
          if cfg.maxTunnelsPerIp = 0 then some (h.goto (.globalCheck kind), sh)
          else if sh.lock.isSome then none
          else some (h.goto (afterPerIpCheck cfg sh h.clientIp kind), sh)
      | .globalCheck kind =>
          if cfg.maxTunnels = 0 then some (h.goto (.serve kind), sh)
          else if sh.lock.isSome then none
          else some (h.goto (afterGlobalCheck cfg sh kind), sh)
      | .serve (.tcp port) =>
          if port = 0 then some (h.goto (.tcpPick 50), sh)
          else some (h.goto (.tcpBind port), sh)
      | .httpInsert entry =>
          if sh.lock.isSome then none
          else if (sh.tunnels.lookup entry.subdomain).isSome then
            some (h.goto (.httpRefusing (takenRefusal entry.subdomain)),
              { sh with lock := some i })
          else
            some (h.goto (.announcing (.http entry.subdomain)),
              sh.insertTunnel entry.subdomain entry)
      | .tcpPick 0 => some (h.goto (.returned (.error .noFreePort)), sh)
      | .tcpInsertPort port => some (h.goto (.announcing (.tcp port)), sh.insertPort port i)
      | .tcpShutdown port => some (h.goto (.tcpRemovePort port), sh.dropListener port)
      | .tcpRemovePort port => some (h.goto (.cleaning (.tcp port)), sh.removePort port)
      | .cleaning endpoint =>
          if sh.lock.isSome then none
          else some (h.goto (.returned (.ok ())), sh.removeTunnel endpoint.key)
      | _ => none
  | .received read =>
      match h.pc with
      | .awaitRegister => some (h.goto (afterRegister cfg sh.lists read), sh)
      | _ => none
  | .instant now =>
      match h.pc with
      | .rateLimiting kind =>
          let outcome := checkAndRecord cfg sh.rates h.clientIp now
          some (h.goto (if outcome.1 then .perIpCheck kind else .refusing rateRefusal),
            { sh with rates := outcome.2 })
      | _ => none
  | .named random unixNow now =>
      match h.pc with
      | .serve (.http subdomain) =>
          (afterNaming cfg i sh h subdomain random unixNow now).map fun pc => (h.goto pc, sh)
      | _ => none
  | .picked port =>
      match h.pc with
      | .tcpPick (tries + 1) =>
          if 10000 ≤ port.toNat ∧ port.toNat < 60000 then
            some (h.goto (if sh.portInUse port then .tcpPick tries else .tcpProbe port tries), sh)
          else none
      | _ => none
  | .bound ok =>
      match h.pc with
      | .tcpProbe port tries =>
          if ok then
            if (sh.listeners.lookup port).isSome then none
            else some (h.goto (.tcpInsertPort port), sh.openListener port i)
          else some (h.goto (.tcpPick tries), sh)
      | .tcpBind port =>
          if ok then
            if (sh.listeners.lookup port).isSome then none
            else some (h.goto (.tcpInsertPort port), sh.openListener port i)
          else some (h.goto (.returned (.error (.bindFailed port))), sh)
      | _ => none
  | .wrote fault =>
      match h.pc with
      | .refusing reply =>
          some ((h.write fault reply).2.goto (.returned (.error (.refused reply))), sh)
      | .httpRefusing reply =>
          some ((h.write fault reply).2.goto (.returned (.error (.refused reply))),
            { sh with lock := none })
      | .announcing endpoint =>
          match h.write fault (.registered (endpoint.url cfg)) with
          | (.ok _, h) => some (h.goto endpoint.announced, sh)
          | (.error e, h) =>
              some (h.goto (.returned (.error (.announce endpoint e))), endpoint.abandon sh)
      | _ => none
  | .clocks unixNow now =>
      match h.pc with
      | .tcpInsertEntry port =>
          if sh.lock.isSome then none
          else
            some (h.goto (.looping (.tcp port)),
              sh.insertTunnel (tcpKey port) (.new i (tcpKey port) h.clientIp unixNow now))
      | _ => none
  | .disconnected =>
      match h.pc with
      | .looping endpoint =>
          if disconnectReady sh i endpoint then some (h.goto endpoint.exit, sh) else none
      | _ => none
  | .ticked fault =>
      match h.pc with
      | .looping endpoint =>
          match h.write fault .ping with
          | (.ok _, h) => some (h, sh)
          | (.error _, h) => some (h.goto endpoint.exit, sh)
      | _ => none
  | .drained n =>
      match h.pc with
      | .looping endpoint =>
          match n with
          | some (_ + 1) => some (h, sh)
          | _ => some (h.goto endpoint.exit, sh)
      | _ => none

end Seamless.Relay
