import Seamless.Relay.Transitions

/-!
What `handle_client` tells the operator on its way: counters of `Metrics`, audit events
and webhook posts. The reports of a step are a function of the step alone, so they stand
beside `Handler.step` branch by branch.
-/

namespace Seamless.Relay

open Seamless.Common
open Seamless.Library
open Seamless.Library.NetAddr

/-- The last fields of a closing event. -/
structure Usage where
  durationSecs : Int
  bytesIn : UInt64
  bytesOut : UInt64
  deriving Repr, DecidableEq

/-- The endpoint stands for the field `kind` and for `subdomain` or `port`. -/
inductive AuditEntry where
  | ipDenylisted (clientIp : String)
  | authFailure (clientIp reason : String)
  | tunnelOpen (endpoint : Endpoint) (url clientIp : String)
  | tunnelClose (endpoint : Endpoint) (url clientIp : String) (usage : Usage)
  | tunnelKeepaliveTimeout (endpoint : Endpoint) (clientIp : String) (usage : Usage)
  | passthroughDenied (peer : String) (listenPort : UInt16)
  | passthroughGeoBlocked (peer : String) (listenPort : UInt16) (country : String)
  | passthroughRateLimited (peer : String) (listenPort : UInt16)
  | passthroughConnect (peer : String) (listenPort : UInt16) (backend : String)
  | passthroughDisconnect (peer : String) (listenPort : UInt16) (backend : String)
      (bytesIn bytesOut : UInt64)
  deriving Repr, DecidableEq

/-- The bodies that `WebhookCtx::fire` posts. -/
inductive WebhookPost where
  | connect (endpoint : Endpoint) (url clientIp : String)
  | disconnect (endpoint : Endpoint) (url clientIp : String) (durationSecs : Int)
  deriving Repr, DecidableEq

inductive Counter where
  | authFailures
  | rateLimitHits
  | tunnelPerIpRejections
  | tunnelCapRejections
  | subdomainInvalid
  | handshakes
  deriving Repr, DecidableEq

inductive Notice where
  | count (counter : Counter)
  -- The other half of `record_handshake_ms`, next to a count of the handshake.
  | handshakeMs (ms : UInt64)
  | audit (event : AuditEntry)
  | webhook (post : WebhookPost)
  deriving Repr, DecidableEq

/-- What a call reads off the clock and off the counters of its tunnel as it takes a step. -/
structure Moment where
  unixNow : Int
  handshakeMs : UInt64
  bytesIn : UInt64
  bytesOut : UInt64
  deriving Repr, DecidableEq

/-- The variables of a call that only its closing reports use. -/
structure CallLocals where
  connectedAt : Int
  keepaliveTimeout : Bool
  deriving Repr, DecidableEq

def CallLocals.start : CallLocals := ⟨0, false⟩

def AuthError.reason : AuthError → String
  | .required => "auth required"
  | .invalid => "invalid token"

def reportRegister (cfg : Config) (lists : Lists) (clientIp : String) (m : Moment) :
    RegisterRead → List Notice
  | .stream r =>
      match (readFrame r).1 with
      | .ok (.register version token _) =>
          if version ≠ protocolVersion then []
          else
            match AuthPolicy.check cfg.subtle lists.auth token with
            | .error e => [.count .authFailures, .audit (.authFailure clientIp e.reason)]
            | .ok _ => [.handshakeMs m.handshakeMs, .count .handshakes]
      | _ => []
  | _ => []

def reportOpened (cfg : Config) (endpoint : Endpoint) (clientIp : String) : List Notice :=
  [.audit (.tunnelOpen endpoint (endpoint.url cfg) clientIp),
    .webhook (.connect endpoint (endpoint.url cfg) clientIp)]

def CallLocals.usage (l : CallLocals) (m : Moment) : Usage :=
  ⟨m.unixNow - l.connectedAt, m.bytesIn, m.bytesOut⟩

def closingEvent (cfg : Config) (endpoint : Endpoint) (clientIp : String) (timedOut : Bool)
    (usage : Usage) : AuditEntry :=
  if timedOut then .tunnelKeepaliveTimeout endpoint clientIp usage
  else .tunnelClose endpoint (endpoint.url cfg) clientIp usage

def reportClosed (cfg : Config) (endpoint : Endpoint) (clientIp : String) (timedOut : Bool)
    (usage : Usage) : List Notice :=
  [.audit (closingEvent cfg endpoint clientIp timedOut usage),
    .webhook (.disconnect endpoint (endpoint.url cfg) clientIp usage.durationSecs)]

/-- What handler `h` reports in the step that it takes on `input`. -/
def Handler.report (cfg : Config) (sh : Shared) (h : Handler) (l : CallLocals) (m : Moment) :
    Input → List Notice
  | .proceed =>
      match h.pc with
      | .start =>
          match sh.lists.denylist with
          | some entries =>
              if isDenied entries h.client then
                [.count .authFailures, .audit (.ipDenylisted h.clientIp)]
              else []
          | none => []
      | .perIpCheck _ =>
          if cfg.maxTunnelsPerIp = 0 then []
          else if cfg.maxTunnelsPerIp.toNat ≤ sh.countForIp h.clientIp then
            [.count .tunnelPerIpRejections]
          else []
      | .globalCheck _ =>
          if cfg.maxTunnels = 0 then []
          else if cfg.maxTunnels.toNat ≤ sh.countAll then [.count .tunnelCapRejections]
          else []
      | .cleaning endpoint =>
          reportClosed cfg endpoint h.clientIp l.keepaliveTimeout (l.usage m)
      | _ => []
  | .received read =>
      match h.pc with
      | .awaitRegister => reportRegister cfg sh.lists h.clientIp m read
      | _ => []
  | .instant now =>
      match h.pc with
      | .rateLimiting _ =>
          if (checkAndRecord cfg sh.rates h.clientIp now).1 then [] else [.count .rateLimitHits]
      | _ => []
  | .named _ _ _ =>
      match h.pc with
      | .serve (.http (some requested)) =>
          match checkRequested cfg sh.lists requested with
          | .error _ => [.count .subdomainInvalid]
          | .ok _ => []
      | _ => []
  | .wrote fault =>
      match h.pc with
      | .announcing endpoint =>
          match (h.write fault (.registered (endpoint.url cfg))).1 with
          | .ok _ => reportOpened cfg endpoint h.clientIp
          | .error _ => []
      | _ => []
  | _ => []

/-- With `tunnel_keepalive = 0` a ping that fails ends the loop as any other error does. -/
def Handler.nextLocals (keepalive : UInt64) (cfg : Config) (h : Handler) (l : CallLocals)
    (m : Moment) : Input → CallLocals
  | .wrote fault =>
      match h.pc with
      | .announcing endpoint =>
          match (h.write fault (.registered (endpoint.url cfg))).1 with
          | .ok _ => { l with connectedAt := m.unixNow }
          | .error _ => l
      | _ => l
  | .ticked fault =>
      match h.pc with
      | .looping _ =>
          match (h.write fault .ping).1 with
          | .ok _ => l
          | .error _ => { l with keepaliveTimeout := keepalive != 0 }
      | _ => l
  | _ => l

end Seamless.Relay
