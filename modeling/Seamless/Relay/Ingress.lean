import Seamless.Relay.Handler
import Seamless.Relay.HttpHead

/-!
The public side of the relay: `route_http`, which serves one public HTTP
connection, and `forward_to_tunnel`, which serves one connection of a TCP tunnel.
Both end by opening a data stream in a client session and copying into it.
-/

namespace Seamless.Relay

open Seamless.Common
open Seamless.Library
open Seamless.Library.NetAddr
open Seamless.Library.ByteStream
open Seamless.Library.Text

structure ProxyRoute where
  id : String
  domain : String
  upstreamUrl : String
  enabled : Bool
  createdAt : Int
  deriving Repr, DecidableEq

inductive RouteError where
  | io (kind : IoErrorKind)
  | preamble (e : CodecError)
  deriving Repr, DecidableEq

inductive Dial where
  | connected (fault : Fault)
  | unreachable
  | timedOut

/-- One public connection: who it comes from, what arrives on it, how many reads
return before the head timer fires, and when a stream it is copied to fails. -/
structure Connection where
  peer : SocketAddr
  isHttps : Bool
  stream : ByteSource
  reads : Nat
  fault : Fault

/-- The settings of the ingress, and what a call finds in the shared state at the
moments it looks there. -/
structure Ingress where
  baseDomain : String
  caseMap : CaseMap
  -- 0 = unlimited.
  maxBodyBytes : UInt64
  geoipBlocked : IpAddr → Bool
  routes : List ProxyRoute
  customDomains : KeyedTable String Binding
  tunnels : TunnelMap
  dial : String → Dial
  now : Nat
  uptimeSecs : Nat
  wsActive : Nat

def Ingress.tunnelsOnly (baseDomain : String) (tunnels : TunnelMap) : Ingress where
  baseDomain := baseDomain
  caseMap := .ascii
  maxBodyBytes := 0
  geoipBlocked := fun _ => false
  routes := []
  customDomains := ∅
  tunnels := tunnels
  dial := fun _ => .unreachable
  now := 0
  uptimeSecs := 0
  wsActive := 0

/-- A bridged stream: whether the call returned an error, and all bytes written. -/
structure Bridged where
  result : Except RouteError Unit
  written : List UInt8
  deriving Repr, DecidableEq

inductive Outcome where
  -- Closed without a response.
  | dropped
  | failed (e : RouteError)
  | responded (response : String)
  | proxied (addr : String) (upstream : Bridged)
  -- A data stream was opened in the session of the tunnel under `key`.
  | tunnelled (key : String) (mux : MuxId) (data : Bridged)
  deriving Repr, DecidableEq

/-- Write `payload`, then copy the public stream until it ends. Writing an empty
payload does nothing, so the code's test for one is not repeated here. -/
def bridge (w : ByteSink) (payload : List UInt8) (rest : ByteSource) : Bridged :=
  match w.writeAll payload with
  | (.error kind, w) => ⟨.error (.io kind), w.written⟩
  | (.ok _, w) => ⟨.ok (), (w.writeAll rest.content).2.written⟩

/-- A fresh data stream: the `NewConn` preamble, the bytes already read, then the
rest of the public stream. -/
def bridgeTunnel (fault : Fault) (peer : SocketAddr) (payload : List UInt8)
    (rest : ByteSource) : Bridged :=
  match writeFrame ⟨[], fault⟩ (.newConn peer.toString) with
  | (.error e, w) => ⟨.error (.preamble e), w.written⟩
  | (.ok _, w) => bridge w payload rest

def forwardToTunnel (fault : Fault) (tcp : ByteSource) (alreadyRead : List UInt8)
    (peer : SocketAddr) : Bridged :=
  bridgeTunnel fault peer alreadyRead tcp

def serveTcpConnection (conn : Connection) : Bridged :=
  forwardToTunnel conn.fault conn.stream [] conn.peer

namespace Ingress

variable (ing : Ingress)

def version : String := "0.1.35"

def healthBody (isHttps : Bool) : String :=
  let tlsVersion := if isHttps then "TLS1.3" else "none"
  "\x7b\"status\":\"ok\",\"version\":\"" ++ version ++ "\",\"uptime_seconds\":" ++
    toString ing.uptimeSecs ++ ",\"tunnels_active\":" ++ toString (KeyedTable.size ing.tunnels) ++
    ",\"ws_connections_active\":" ++ toString ing.wsActive ++ ",\"tls_version\":\"" ++
    tlsVersion ++ "\",\"fips_mode\":false\x7d"

def healthResponse (isHttps : Bool) : String :=
  let body := ing.healthBody isHttps
  "HTTP/1.1 200 OK\r\nContent-Length: " ++ toString (utf8 body).length ++
    "\r\nContent-Type: application/json\r\n" ++ hsts isHttps ++
    "Cache-Control: no-store\r\nConnection: close\r\n\r\n" ++ body

def isHealthCheck (request : String × String) : Bool :=
  request.1 == "GET" && (request.2 == "/health" || request.2 == "/health/")

def declaredTooLarge (head : List UInt8) : Option UInt64 :=
  if 0 < ing.maxBodyBytes then
    (parseContentLength head).filter fun cl => ing.maxBodyBytes < cl
  else none

def tooLargeResponse (cl : UInt64) (isHttps : Bool) : String :=
  errorResponse "413 Content Too Large"
    ("seamless: request body too large (" ++ toString cl.toNat ++ " bytes, limit " ++
      toString ing.maxBodyBytes.toNat ++ " bytes)\n") isHttps

def lowerHost (host : String) : String := ing.caseMap.lowerString (hostOnly host)

def upstreamUrl (host : String) : Option String :=
  (ing.routes.find? fun r =>
    r.enabled && ing.caseMap.lowerString r.domain == ing.lowerHost host).map (·.upstreamUrl)

/-- The registry key for a host: a custom domain, or a name under the base domain. -/
def tunnelKey (host : String) : Option String :=
  ((ing.customDomains.lookup (ing.lowerHost host)).map Binding.key).or
    (extractSubdomain host ing.baseDomain)

def challengeResponse (ddos : DDoSProtection) : String :=
  "HTTP/1.1 429 Too Many Requests\r\nRetry-After: 1\r\nX-RateLimit-Limit: " ++
    toString ddos.rps.toNat ++ "\r\nX-RateLimit-Remaining: 0\r\nContent-Length: 25\r\n" ++
    "Content-Type: text/plain\r\nConnection: close\r\n\r\nrate limit exceeded\n"

def rateLimitResponse (ddos : DDoSProtection) (isHttps : Bool) : String :=
  if ddos.challengeMode then challengeResponse ddos
  else errorResponse "429 Too Many Requests" "rate limit exceeded\n" isHttps

def forwardedHead (conn : Connection) (head : List UInt8) : List UInt8 :=
  if head.isEmpty then []
  else injectForwardingHeaders head conn.peer.ip.toString conn.isHttps

def routeToUpstream (conn : Connection) (host url : String) (head : List UInt8)
    (rest : ByteSource) : Outcome :=
  match parseUpstreamAddr url with
  | none =>
      .responded (errorResponse "502 Bad Gateway"
        ("seamless: misconfigured upstream for '" ++ host ++ "'\n") conn.isHttps)
  | some addr =>
      match ing.dial addr with
      | .unreachable =>
          .responded (errorResponse "502 Bad Gateway"
            ("seamless: upstream '" ++ addr ++ "' unreachable\n") conn.isHttps)
      | .timedOut =>
          .responded (errorResponse "504 Gateway Timeout"
            ("seamless: upstream '" ++ addr ++ "' timed out\n") conn.isHttps)
      | .connected fault =>
          .proxied addr (bridge ⟨[], fault⟩
            (injectForwardingHeaders head conn.peer.ip.toString conn.isHttps) rest)

/-- Towards a tunnel. The token bucket of the entry is charged on the way. -/
def routeToTunnel (conn : Connection) (sub : String) (entry : TunnelEntry) (head : List UInt8)
    (rest : ByteSource) : Outcome × TunnelMap :=
  if entry.paused then
    (.responded (errorResponse "503 Service Unavailable"
      ("seamless: tunnel '" ++ sub ++ "' is paused\n") conn.isHttps), ing.tunnels)
  else
    let checked := entry.ddos.check ing.now
    let tunnels := ing.tunnels.insert sub { entry with ddos := checked.2 }
    if checked.1 then
      (.tunnelled sub entry.mux
        (bridgeTunnel conn.fault conn.peer (forwardedHead conn head) rest), tunnels)
    else (.responded (rateLimitResponse checked.2 conn.isHttps), tunnels)

def routeRequest (conn : Connection) (head : List UInt8) (rest : ByteSource) :
    Outcome × TunnelMap :=
  match parseHostHeader head with
  | none =>
      (.responded (errorResponse "400 Bad Request" "missing Host: header\n" conn.isHttps),
        ing.tunnels)
  | some host =>
      if isHealthCheck (parseRequestLine head) then
        (.responded (ing.healthResponse conn.isHttps), ing.tunnels)
      else
        match ing.declaredTooLarge head with
        | some cl => (.responded (ing.tooLargeResponse cl conn.isHttps), ing.tunnels)
        | none =>
            match ing.upstreamUrl host with
            | some url => (ing.routeToUpstream conn host url head rest, ing.tunnels)
            | none =>
                match (ing.tunnelKey host).bind fun sub =>
                    (ing.tunnels.lookup sub).map fun entry => (sub, entry) with
                | some (sub, entry) => ing.routeToTunnel conn sub entry head rest
                | none =>
                    (.responded (errorResponse "502 Bad Gateway"
                      ("seamless: no route for '" ++ host ++ "'\n") conn.isHttps), ing.tunnels)

/-- The outcome of a call, and the registry with the token bucket it charged. -/
def routeHttp (conn : Connection) : Outcome × TunnelMap :=
  if ing.geoipBlocked conn.peer.ip then (.dropped, ing.tunnels)
  else
    match readHead conn.reads [] conn.stream with
    | (none, _, _) => (.dropped, ing.tunnels)
    | (some (.error kind), _, _) => (.failed (.io kind), ing.tunnels)
    | (some (.ok false), head, _) =>
        if maxHeadBytes < head.length then
          (.responded (errorResponse "431 Request Header Fields Too Large" "" conn.isHttps),
            ing.tunnels)
        else (.dropped, ing.tunnels)
    | (some (.ok true), head, rest) => ing.routeRequest conn head rest

end Ingress

theorem fits_preamble (peer : SocketAddr) : FrameFits (.newConn peer.toString) :=
  fits_newConn (peer.length_text_le.trans (by norm_num))

theorem bridge_prefix (w : ByteSink) (payload : List UInt8) (rest : ByteSource) :
    ∃ sent, sent <+: payload ++ rest.content ∧
      (bridge w payload rest).written = w.written ++ sent := by
  obtain ⟨first, hfirst, hwritten, hall⟩ := w.writeAll_spec payload
  unfold bridge
  split
  · rename_i kind w₁ hwrite
    simp only [hwrite] at hwritten
    exact ⟨first, hfirst.trans (List.prefix_append _ _), hwritten⟩
  · rename_i w₁ hwrite
    simp only [hwrite, forall_const] at hwritten hall
    subst hall
    obtain ⟨second, hsecond, hwritten', -⟩ := w₁.writeAll_spec rest.content
    refine ⟨first ++ second, (List.prefix_append_right_inj _).mpr hsecond, ?_⟩
    rw [hwritten', hwritten, List.append_assoc]

theorem bridgeTunnel_prefix (fault : Fault) (peer : SocketAddr) (payload : List UInt8)
    (rest : ByteSource) :
    (bridgeTunnel fault peer payload rest).written <+:
      frameBytes (.newConn peer.toString) ++ (payload ++ rest.content) := by
  obtain ⟨accepted, haccepted, hwritten, hall⟩ :=
    writeFrame_spec ⟨[], fault⟩ (.newConn peer.toString)
  unfold bridgeTunnel
  split
  · rename_i e w hwrite
    simp only [hwrite, List.nil_append] at hwritten
    rw [hwritten]
    exact haccepted.trans (List.prefix_append _ _)
  · rename_i w hwrite
    simp only [hwrite, List.nil_append, forall_const] at hwritten hall
    obtain ⟨sent, hsent, hbridge⟩ := bridge_prefix w payload rest
    rw [hbridge, hwritten, hall.1]
    exact (List.prefix_append_right_inj _).mpr hsent

theorem bridgeTunnel_reliable (peer : SocketAddr) (payload : List UInt8) (rest : ByteSource) :
    bridgeTunnel none peer payload rest =
      ⟨.ok (), frameBytes (.newConn peer.toString) ++ (payload ++ rest.content)⟩ := by
  have hwrite := writeFrame_reliable [] (fits_preamble peer)
  simp only [Sink.reliable, List.nil_append] at hwrite
  simp [bridgeTunnel, hwrite, bridge, Sink.writeAll]

/-- What it takes for a public connection to reach a tunnel, and what is then
written into it. -/
structure ReachesTunnel (ing : Ingress) (conn : Connection) (key : String) (mux : MuxId)
    (data : Bridged) (head : List UInt8) (rest : ByteSource) (host : String) : Prop where
  complete : readHead conn.reads [] conn.stream = (some (.ok true), head, rest)
  host_eq : parseHostHeader head = some host
  noRoute : ing.upstreamUrl host = none
  key_eq : ing.tunnelKey host = some key
  live : ∃ entry, ing.tunnels.lookup key = some entry ∧ entry.mux = mux ∧ entry.paused = false
  data_eq : data = bridgeTunnel conn.fault conn.peer
    (injectForwardingHeaders head conn.peer.ip.toString conn.isHttps) rest

theorem forwardedHead_of_complete {conn : Connection} {head : List UInt8}
    (h : (windowPosition blankLine head).isSome) :
    Ingress.forwardedHead conn head =
      injectForwardingHeaders head conn.peer.ip.toString conn.isHttps := by
  cases head with
  | nil => simp [windowPosition] at h
  | cons b head => rfl

theorem Ingress.routeRequest_tunnelled {ing : Ingress} {conn : Connection} {key : String}
    {mux : MuxId} {data : Bridged} {head : List UInt8} {rest : ByteSource}
    (h : (ing.routeRequest conn head rest).1 = .tunnelled key mux data) :
    ∃ host, parseHostHeader head = some host ∧ ing.upstreamUrl host = none ∧
      ing.tunnelKey host = some key ∧
      (∃ entry, ing.tunnels.lookup key = some entry ∧ entry.mux = mux ∧
        entry.paused = false) ∧
      data = bridgeTunnel conn.fault conn.peer (forwardedHead conn head) rest := by
  unfold routeRequest at h
  split at h
  · simp at h
  · rename_i host hhost
    split at h
    · simp at h
    · split at h
      · simp at h
      · split at h
        · dsimp only [routeToUpstream] at h
          split at h
          · simp at h
          · split at h <;> simp at h
        · rename_i hroute
          split at h
          · rename_i sub entry hfound
            obtain ⟨sub', hkey, hentry⟩ := Option.bind_eq_some_iff.mp hfound
            obtain ⟨entry', hlookup, hpair⟩ := Option.map_eq_some_iff.mp hentry
            obtain ⟨rfl, rfl⟩ := Prod.mk.inj hpair
            unfold routeToTunnel at h
            split at h
            · simp at h
            · rename_i hpaused
              dsimp only at h
              split at h
              · simp only [Outcome.tunnelled.injEq] at h
                obtain ⟨rfl, rfl, rfl⟩ := h
                exact ⟨host, hhost, hroute, hkey, ⟨entry', hlookup, rfl, by simpa using hpaused⟩,
                  rfl⟩
              · simp at h
          · simp at h

theorem Ingress.routeHttp_tunnelled {ing : Ingress} {conn : Connection} {key : String}
    {mux : MuxId} {data : Bridged} (h : (ing.routeHttp conn).1 = .tunnelled key mux data) :
    ∃ head rest host, ReachesTunnel ing conn key mux data head rest host := by
  unfold routeHttp at h
  split at h
  · simp at h
  · split at h
    · simp at h
    · simp at h
    · split at h <;> simp at h
    · rename_i head rest hread
      obtain ⟨host, hhost, hroute, hkey, hlive, hdata⟩ := routeRequest_tunnelled h
      rw [forwardedHead_of_complete ((readHead_spec hread).2 rfl)] at hdata
      exact ⟨head, rest, host, hread, hhost, hroute, hkey, hlive, hdata⟩

end Seamless.Relay
