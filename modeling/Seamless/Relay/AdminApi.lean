import Seamless.Relay.Ingress
import Seamless.Relay.System

/-!
The admin interface: the router, the address check in front of it, and the
handlers with the state they read and write. Decoding of path parameters, query
strings and JSON bodies is a parameter, as is everything outside the relay.
-/

namespace Seamless.Relay

open Seamless.Common
open Seamless.Library
open Seamless.Library.NetAddr
open Seamless.Library.Text
open Seamless.Library.TransitionSystem

structure CfSettings where
  apiToken : String
  accountId : String
  deriving Repr, DecidableEq

structure Store where
  routes : List ProxyRoute
  cf : Option CfSettings
  deriving Repr, DecidableEq

/-- What the admin handlers can reach of the relay. -/
structure AdminState where
  store : Store
  shared : Shared

/-- `HeaderValue::to_str` of the crate `http`: a header value as text, when it is
visible ASCII. -/
structure HeaderValues where
  toStr : List UInt8 → Option String
  fromUtf8_of_toStr : ∀ value text, toStr value = some text → fromUtf8 value = some text

def isVisibleAscii (b : UInt8) : Bool := (32 ≤ b && b < 127) || b == 9

def HeaderValues.plain : HeaderValues where
  toStr := fun value => if value.all isVisibleAscii then fromUtf8 value else none
  fromUtf8_of_toStr := by simp

structure Admin where
  cfg : Config
  http : HeaderValues
  adminToken : Option String
  adminCidrs : List Cidr

inductive Method where
  | get
  | post
  | put
  | delete
  | other
  deriving Repr, DecidableEq

/-- A request: `path` is cut at its slashes, `headers` has lower-case names. A
`HEAD` request counts as `get`, as it does for the router; `OPTIONS` is answered by
the CORS layer and reaches no handler. -/
structure AdminRequest where
  peer : IpAddr
  method : Method
  path : List String
  query : String
  headers : List (String × List UInt8)
  body : List UInt8

def AdminRequest.authorization (req : AdminRequest) : Option (List UInt8) :=
  req.headers.lookup "authorization"

/-- A reply: its status and, for an error, the members of its JSON body or its plain
text. Bodies of successful replies are not modelled. -/
structure Reply where
  status : Nat
  fields : List (String × String)
  text : String
  deriving Repr, DecidableEq

def Reply.ok (status : Nat) : Reply := ⟨status, [], ""⟩

def Reply.error (status : Nat) (message : String) : Reply :=
  ⟨status, [("error", message)], ""⟩

def badRequest (message : String) : Reply := .error 400 message

def notFound : Reply := .error 404 "not found"

def credentialsRequired : Reply :=
  .error 422 "credentials not configured — set CF API token and account ID in Settings"

def err (message : String) : Reply := .error 500 message

structure RouteReq where
  domain : String
  upstreamUrl : String
  enabled : Bool

structure SaveSettingsReq where
  cfApiToken : Option String
  cfAccountId : String

structure DdosConfigReq where
  enabled : Option Bool
  requestsPerSecondLimit : Option UInt32
  burstSize : Option UInt32
  challengeMode : Option Bool

structure AddBackendReq where
  addr : String
  weight : UInt32

structure CreateDnsRecord where
  name : String
  recordType : String
  content : String
  proxied : Bool
  ttl : UInt32

inductive CfCall where
  | listTunnels
  | createTunnel (name : String)
  | deleteTunnel (id : String)
  | getTunnelToken (id : String)
  | listZones
  | listDnsRecords (zoneId : String)
  | createDnsRecord (zoneId : String) (record : CreateDnsRecord)
  | updateDnsRecord (zoneId recordId : String) (record : CreateDnsRecord)
  | deleteDnsRecord (zoneId recordId : String)

/-- What a request finds outside the relay: a fresh UUID, the clock, the outcome of
a connection attempt and of a Cloudflare call. -/
structure AdminEnv where
  freshId : String
  unixNow : Int
  probe : SocketAddr → Bool
  cloudflare : CfSettings → CfCall → Except String Unit

/-- A request that has been routed and decoded, one constructor for each handler. -/
inductive ApiCall where
  | serveUi
  | healthCheck
  | readyCheck
  | metricsHandler
  | listRoutes
  | createRoute (req : RouteReq)
  | updateRoute (id : String) (req : RouteReq)
  | deleteRoute (id : String)
  | listSeamlessTunnels
  | getSeamlessTunnel (id : String)
  | getDdosConfig (id : String)
  | setDdosConfig (id : String) (req : DdosConfigReq)
  | getTunnelRequests (id : String) (limit : Option Nat)
  | statsHistoryHandler
  | adminBulkDisconnect (clientIp : String)
  | adminDisconnectTunnel (id : String)
  | adminTunnelStats (id : String)
  | adminPauseTunnel (id : String)
  | adminResumeTunnel (id : String)
  | adminAuditQuery (since : Option Int) (limit : Option Nat)
  | listCustomDomains
  | setCustomDomain (tunnelId domain : String)
  | removeCustomDomain (tunnelId : String)
  | listBackends (tunnelId : String)
  | addBackend (tunnelId : String) (req : AddBackendReq)
  | removeBackend (tunnelId backendId : String)
  | forceHealthCheck (tunnelId backendId : String)
  | getLogs
  | healthRoutes
  | getStatus
  | getSettings
  | saveSettings (req : SaveSettingsReq)
  | cfListTunnels
  | cfCreateTunnel (name : String)
  | cfDeleteTunnel (id : String)
  | cfTunnelToken (id : String)
  | cfListZones
  | cfListDns (zoneId : String)
  | cfCreateDns (zoneId : String) (req : CreateDnsRecord)
  | cfUpdateDns (zoneId recordId : String) (req : CreateDnsRecord)
  | cfDeleteDns (zoneId recordId : String)

/-- What the web framework makes of a path parameter, a query or a body; an error
is the status of the rejection. -/
structure Extractors where
  param : String → Except Nat String
  routeReq : AdminRequest → Except Nat RouteReq
  ddosConfigReq : AdminRequest → Except Nat DdosConfigReq
  clientIp : AdminRequest → Except Nat String
  domain : AdminRequest → Except Nat String
  addBackendReq : AdminRequest → Except Nat AddBackendReq
  saveSettingsReq : AdminRequest → Except Nat SaveSettingsReq
  tunnelName : AdminRequest → Except Nat String
  dnsRecord : AdminRequest → Except Nat CreateDnsRecord
  auditQuery : AdminRequest → Except Nat (Option Int × Option Nat)
  requestLog : AdminRequest → Except Nat (Option Nat)

def onMethod (req : AdminRequest) (handlers : List (Method × Except Nat ApiCall)) :
    Except Nat ApiCall :=
  (handlers.lookup req.method).getD (.error 405)

/-- The route table of `start_admin`. Literal segments win over parameters, and a
parameter never matches an empty segment. -/
def router (x : Extractors) (req : AdminRequest) : Except Nat ApiCall :=
  if req.path ≠ [""] ∧ req.path.any String.isEmpty then .error 404
  else
    match req.path with
    | [""] => onMethod req [(.get, pure .serveUi)]
    | ["health"] => onMethod req [(.get, pure .healthCheck)]
    | ["ready"] => onMethod req [(.get, pure .readyCheck)]
    | ["metrics"] => onMethod req [(.get, pure .metricsHandler)]
    | ["api", "routes"] =>
        onMethod req [(.get, pure .listRoutes), (.post, return .createRoute (← x.routeReq req))]
    | ["api", "routes", "health"] => onMethod req [(.get, pure .healthRoutes)]
    | ["api", "routes", id] =>
        onMethod req
          [(.put, return .updateRoute (← x.param id) (← x.routeReq req)),
            (.delete, return .deleteRoute (← x.param id))]
    | ["api", "tunnels"] => onMethod req [(.get, pure .listSeamlessTunnels)]
    | ["api", "tunnels", id] => onMethod req [(.get, return .getSeamlessTunnel (← x.param id))]
    | ["api", "tunnels", id, "ddos"] =>
        onMethod req
          [(.get, return .getDdosConfig (← x.param id)),
            (.put, return .setDdosConfig (← x.param id) (← x.ddosConfigReq req))]
    | ["api", "tunnels", id, "requests"] =>
        onMethod req [(.get, return .getTunnelRequests (← x.param id) (← x.requestLog req))]
    | ["api", "tunnels", id, "custom-domain"] =>
        onMethod req
          [(.post, return .setCustomDomain (← x.param id) (← x.domain req)),
            (.delete, return .removeCustomDomain (← x.param id))]
    | ["api", "tunnels", id, "backends"] =>
        onMethod req
          [(.get, return .listBackends (← x.param id)),
            (.post, return .addBackend (← x.param id) (← x.addBackendReq req))]
    | ["api", "tunnels", id, "backends", backendId] =>
        onMethod req [(.delete, return .removeBackend (← x.param id) (← x.param backendId))]
    | ["api", "tunnels", id, "backends", backendId, "health"] =>
        onMethod req [(.post, return .forceHealthCheck (← x.param id) (← x.param backendId))]
    | ["api", "stats", "history"] => onMethod req [(.get, pure .statsHistoryHandler)]
    | ["admin", "tunnels", "disconnect"] =>
        onMethod req [(.post, return .adminBulkDisconnect (← x.clientIp req))]
    | ["admin", "tunnels", id] =>
        onMethod req [(.delete, return .adminDisconnectTunnel (← x.param id))]
    | ["admin", "tunnels", id, "stats"] =>
        onMethod req [(.get, return .adminTunnelStats (← x.param id))]
    | ["admin", "tunnels", id, "pause"] =>
        onMethod req [(.post, return .adminPauseTunnel (← x.param id))]
    | ["admin", "tunnels", id, "resume"] =>
        onMethod req [(.post, return .adminResumeTunnel (← x.param id))]
    | ["admin", "audit"] =>
        onMethod req [(.get, do
          let (since, limit) ← x.auditQuery req
          return .adminAuditQuery since limit)]
    | ["api", "custom-domains"] => onMethod req [(.get, pure .listCustomDomains)]
    | ["api", "logs"] => onMethod req [(.get, pure .getLogs)]
    | ["api", "status"] => onMethod req [(.get, pure .getStatus)]
    | ["api", "settings"] =>
        onMethod req
          [(.get, pure .getSettings), (.put, return .saveSettings (← x.saveSettingsReq req))]
    | ["api", "cf", "tunnels"] =>
        onMethod req
          [(.get, pure .cfListTunnels), (.post, return .cfCreateTunnel (← x.tunnelName req))]
    | ["api", "cf", "tunnels", id] =>
        onMethod req [(.delete, return .cfDeleteTunnel (← x.param id))]
    | ["api", "cf", "tunnels", id, "token"] =>
        onMethod req [(.get, return .cfTunnelToken (← x.param id))]
    | ["api", "cf", "zones"] => onMethod req [(.get, pure .cfListZones)]
    | ["api", "cf", "dns", zoneId] =>
        onMethod req
          [(.get, return .cfListDns (← x.param zoneId)),
            (.post, return .cfCreateDns (← x.param zoneId) (← x.dnsRecord req))]
    | ["api", "cf", "dns", zoneId, recordId] =>
        onMethod req
          [(.put,
              return .cfUpdateDns (← x.param zoneId) (← x.param recordId) (← x.dnsRecord req)),
            (.delete, return .cfDeleteDns (← x.param zoneId) (← x.param recordId))]
    | _ => .error 404

def unauthorized : Reply :=
  ⟨401, [("error", "invalid or missing admin token"),
    ("hint", "Authorization: Bearer <token>")], ""⟩

def checkAdminAuth (http : HeaderValues) (subtle : ConstantTimeEq)
    (headers : List (String × List UInt8)) (expected : Option String) : Option Reply :=
  match expected with
  | none => none
  | some tok =>
      let provided := ((headers.lookup "authorization").bind http.toStr).bind fun v =>
        (stripPrefix "Bearer ".toList v.toList).map String.ofList
      let ok :=
        match provided with
        | some t => subtle.ctEq (utf8 t) (utf8 tok) == 1
        | none => false
      if ok then none else some unauthorized

def ipInCidr (ip : IpAddr) (cidrs : List Cidr) : Bool :=
  if cidrs.isEmpty then true
  else
    match ip with
    | .v4 v4 => cidrs.any fun cidr => v4.toBits &&& cidr.mask == cidr.net
    | .v6 _ => false

/-- Replace the first element that satisfies `p`; `none` when there is none. -/
def updateFirst {α : Type} (p : α → Bool) (f : α → α) : List α → Option (List α)
  | [] => none
  | a :: l => if p a then some (f a :: l) else (updateFirst p f l).map (a :: ·)

theorem updateFirst_eq_some_iff {α : Type} {p : α → Bool} {f : α → α} {l l' : List α} :
    updateFirst p f l = some l' ↔ ∃ front a rest, p a = true ∧ (∀ b ∈ front, (!p b) = true) ∧
      l = front ++ a :: rest ∧ l' = front ++ f a :: rest := by
  constructor
  · intro h
    induction l generalizing l' with
    | nil => cases h
    | cons b l ih =>
        rw [updateFirst] at h
        split at h
        · rename_i hb
          obtain rfl := Option.some.inj h
          exact ⟨[], b, l, hb, by simp, rfl, rfl⟩
        · rename_i hb
          obtain ⟨l', hl', rfl⟩ := Option.map_eq_some_iff.mp h
          obtain ⟨front, a, rest, ha, hfront, rfl, rfl⟩ := ih hl'
          exact ⟨b :: front, a, rest, ha, by simpa [hb] using hfront, rfl, rfl⟩
  · rintro ⟨front, a, rest, ha, hfront, rfl, rfl⟩
    induction front with
    | nil => simp [updateFirst, ha]
    | cons b front ih =>
        rw [List.forall_mem_cons, Bool.not_eq_true'] at hfront
        rw [List.cons_append, updateFirst, if_neg (Bool.eq_false_iff.mp hfront.1), ih hfront.2]
        rfl

namespace AdminState

variable (adm : Admin) (env : AdminEnv) (s : AdminState)

/-- The handlers that begin with `check_admin_auth`. -/
def guarded (headers : List (String × List UInt8)) (body : Reply × AdminState) :
    Reply × AdminState :=
  match checkAdminAuth adm.http adm.cfg.subtle headers adm.adminToken with
  | some deny => (deny, s)
  | none => body

def view : Reply × AdminState := (.ok 200, s)

def onTunnel (id : String) (body : TunnelEntry → Reply × AdminState) : Reply × AdminState :=
  match s.shared.tunnels.lookup id with
  | some entry => body entry
  | none => (notFound, s)

def setEntry (id : String) (entry : TunnelEntry) : AdminState :=
  { s with shared := s.shared.insertTunnel id entry }

def setRoutes (routes : List ProxyRoute) : AdminState :=
  { s with store := { s.store with routes := routes } }

def normalDomain (domain : String) : String :=
  adm.cfg.caseMap.lowerString (String.ofList (trim domain.toList))

def trimmed (text : String) : String := String.ofList (trim text.toList)

def createRoute (req : RouteReq) : Reply × AdminState :=
  let domain := normalDomain adm req.domain
  let upstreamUrl := trimmed req.upstreamUrl
  if domain.isEmpty || upstreamUrl.isEmpty then
    (badRequest "domain and upstream_url required", s)
  else if s.store.routes.any fun r => r.domain == domain then
    (.error 409 "domain already exists", s)
  else
    (.ok 201, s.setRoutes
      (s.store.routes ++ [⟨env.freshId, domain, upstreamUrl, req.enabled, env.unixNow⟩]))

def updatedRoute (req : RouteReq) (r : ProxyRoute) : ProxyRoute :=
  { r with
    domain := normalDomain adm req.domain
    upstreamUrl := trimmed req.upstreamUrl
    enabled := req.enabled }

def updateRoute (id : String) (req : RouteReq) : Reply × AdminState :=
  match updateFirst (fun r => r.id == id) (updatedRoute adm req) s.store.routes with
  | some routes => (.ok 200, s.setRoutes routes)
  | none => (notFound, s)

def deleteRoute (id : String) : Reply × AdminState :=
  let routes := s.store.routes.filter fun r => r.id != id
  (if routes.length < s.store.routes.length then .ok 204 else .ok 404, s.setRoutes routes)

/-- The settings after a save: an empty or masked token keeps the stored one. -/
def mergedSettings (req : SaveSettingsReq) : CfSettings where
  apiToken :=
    let existing := (s.store.cf.map CfSettings.apiToken).getD ""
    match req.cfApiToken with
    | some t => if !t.isEmpty && t.toList.head? != some '…' then t else existing
    | none => existing
  accountId := trimmed req.cfAccountId

def saveSettings (req : SaveSettingsReq) : Reply × AdminState :=
  (.ok 204, { s with store := { s.store with cf := some (s.mergedSettings req) } })

def setDdosConfig (id : String) (req : DdosConfigReq) : Reply × AdminState :=
  s.onTunnel id fun entry =>
    (.ok 200, s.setEntry id { entry with
      ddos := { entry.ddos with
        enabled := req.enabled.getD entry.ddos.enabled
        rps := (req.requestsPerSecondLimit.map (max 1)).getD entry.ddos.rps
        burst := (req.burstSize.map (max 1)).getD entry.ddos.burst
        challengeMode := req.challengeMode.getD entry.ddos.challengeMode } })

def adminBulkDisconnect (clientIp : String) : Reply × AdminState :=
  let targetIp := trimmed clientIp
  if targetIp.isEmpty then (badRequest "client_ip is required", s)
  else
    let matching := s.shared.sessionsFrom targetIp
    if matching.isEmpty then
      (⟨404, [("error", "no active tunnels found for IP " ++ targetIp), ("disconnected", "0")],
        ""⟩, s)
    else (.ok 200, { s with shared := matching.foldl Shared.signal s.shared })

def adminDisconnectTunnel (id : String) : Reply × AdminState :=
  s.onTunnel id fun entry => (.ok 204, { s with shared := s.shared.signal entry.mux })

/-- `admin_pause_tunnel` and `admin_resume_tunnel`. -/
def adminSetPaused (paused : Bool) (id : String) : Reply × AdminState :=
  s.onTunnel id fun entry => (.ok 204, s.setEntry id { entry with paused := paused })

def setCustomDomain (tunnelId raw : String) : Reply × AdminState :=
  let domain := normalDomain adm raw
  if domain.isEmpty || !containsChar '.' domain.toList then
    (badRequest "domain must be a valid FQDN", s)
  else if (s.shared.tunnels.lookup tunnelId).isNone then (notFound, s)
  else if !adm.cfg.allowCustomDomains && !adm.cfg.customDomainAllowlist.contains domain then
    (.error 403 ("domain '" ++ domain ++ "' is not in the allowlist"), s)
  else
    (.ok 201, { s with shared := { s.shared with
      customDomains :=
        s.shared.customDomains.insert domain ⟨tunnelId, s.shared.holder tunnelId⟩ } })

def removeCustomDomain (tunnelId : String) : Reply × AdminState :=
  let bound := KeyedTable.filter (fun _ b => b.key == tunnelId) s.shared.customDomains
  (if KeyedTable.size bound = 0 then notFound else .ok 204,
    { s with shared := { s.shared with
      customDomains := KeyedTable.filter (fun _ b => b.key != tunnelId) s.shared.customDomains } })

/-- `BackendEntry::new`. -/
def newBackend (addr : SocketAddr) (weight : UInt32) : BackendEntry where
  id := env.freshId
  addr := addr
  weight := weight
  healthy := true
  requests := 0
  errors := 0

def addBackend (tunnelId : String) (req : AddBackendReq) : Reply × AdminState :=
  match parseSocketAddr req.addr with
  | none => (badRequest "invalid addr — expected host:port", s)
  | some addr =>
      s.onTunnel tunnelId fun entry =>
        (.ok 201, s.setEntry tunnelId { entry with
          backends := entry.backends ++ [newBackend env addr (max 1 req.weight)] })

def removeBackend (tunnelId backendId : String) : Reply × AdminState :=
  s.onTunnel tunnelId fun entry =>
    let backends := entry.backends.filter fun b => b.id != backendId
    if backends.length = entry.backends.length then (notFound, s)
    else (.ok 204, s.setEntry tunnelId { entry with backends := backends })

def forceHealthCheck (tunnelId backendId : String) : Reply × AdminState :=
  s.onTunnel tunnelId fun entry =>
    match updateFirst (fun b => b.id == backendId)
        (fun b => { b with healthy := env.probe b.addr }) entry.backends with
    | none => (notFound, s)
    | some backends => (.ok 200, s.setEntry tunnelId { entry with backends := backends })

def cfClient : Option CfSettings :=
  s.store.cf.filter fun cf => !cf.apiToken.isEmpty && !cf.accountId.isEmpty

/-- A handler that passes a call on to Cloudflare; `status` is its success. -/
def cfForward (status : Nat) (call : CfCall) : Reply × AdminState :=
  match s.cfClient with
  | none => (credentialsRequired, s)
  | some cf =>
      match env.cloudflare cf call with
      | .ok _ => (.ok status, s)
      | .error e => (err e, s)

def handle (headers : List (String × List UInt8)) : ApiCall → Reply × AdminState
  | .serveUi => s.view
  | .healthCheck => s.view
  | .readyCheck => s.view
  | .metricsHandler => s.view
  | .listRoutes => s.view
  | .createRoute req => s.createRoute adm env req
  | .updateRoute id req => s.updateRoute adm id req
  | .deleteRoute id => s.deleteRoute id
  | .listSeamlessTunnels => s.guarded adm headers s.view
  | .getSeamlessTunnel id => s.guarded adm headers (s.onTunnel id fun _ => s.view)
  | .getDdosConfig id => s.guarded adm headers (s.onTunnel id fun _ => s.view)
  | .setDdosConfig id req => s.guarded adm headers (s.setDdosConfig id req)
  | .getTunnelRequests id _ => s.guarded adm headers (s.onTunnel id fun _ => s.view)
  | .statsHistoryHandler => s.guarded adm headers s.view
  | .adminBulkDisconnect clientIp => s.guarded adm headers (s.adminBulkDisconnect clientIp)
  | .adminDisconnectTunnel id => s.guarded adm headers (s.adminDisconnectTunnel id)
  | .adminTunnelStats id => s.guarded adm headers (s.onTunnel id fun _ => s.view)
  | .adminPauseTunnel id => s.guarded adm headers (s.adminSetPaused true id)
  | .adminResumeTunnel id => s.guarded adm headers (s.adminSetPaused false id)
  | .adminAuditQuery _ _ => s.guarded adm headers s.view
  | .listCustomDomains => s.guarded adm headers s.view
  | .setCustomDomain id domain => s.guarded adm headers (s.setCustomDomain adm id domain)
  | .removeCustomDomain id => s.guarded adm headers (s.removeCustomDomain id)
  | .listBackends id => s.guarded adm headers (s.onTunnel id fun _ => s.view)
  | .addBackend id req => s.guarded adm headers (s.addBackend env id req)
  | .removeBackend id backendId => s.guarded adm headers (s.removeBackend id backendId)
  | .forceHealthCheck id backendId => s.guarded adm headers (s.forceHealthCheck env id backendId)
  | .getLogs => s.guarded adm headers s.view
  | .healthRoutes => s.view
  | .getStatus => s.view
  | .getSettings => s.view
  | .saveSettings req => s.saveSettings req
  | .cfListTunnels => s.cfForward env 200 .listTunnels
  | .cfCreateTunnel name => s.cfForward env 201 (.createTunnel (trimmed name))
  | .cfDeleteTunnel id => s.cfForward env 204 (.deleteTunnel id)
  | .cfTunnelToken id => s.cfForward env 200 (.getTunnelToken id)
  | .cfListZones => s.cfForward env 200 .listZones
  | .cfListDns zoneId => s.cfForward env 200 (.listDnsRecords zoneId)
  | .cfCreateDns zoneId req => s.cfForward env 201 (.createDnsRecord zoneId req)
  | .cfUpdateDns zoneId recordId req => s.cfForward env 200 (.updateDnsRecord zoneId recordId req)
  | .cfDeleteDns zoneId recordId => s.cfForward env 204 (.deleteDnsRecord zoneId recordId)

/-- One request: the address check, the router, the handler. -/
def serve (x : Extractors) (req : AdminRequest) : Reply × AdminState :=
  if !ipInCidr req.peer adm.adminCidrs then
    (⟨403, [], "Admin access denied from your IP\n"⟩, s)
  else
    match router x req with
    | .error status => (.ok status, s)
    | .ok call => s.handle adm env req.headers call

end AdminState

/-- The relay can go from `sys` to the shared state of `s` in steps of its own, with
no handler moving. -/
def RunsTo (cfg : Config) (sys : System) (s : AdminState) : Prop :=
  ∃ labels sys', exec (System.step cfg) sys labels = some sys' ∧
    sys'.shared = s.shared ∧ sys'.handlers = sys.handlers

/-- The handlers that change an entry of the tunnel map in place. -/
def ApiCall.EditsEntry : ApiCall → Prop
  | .setDdosConfig _ _ | .adminPauseTunnel _ | .adminResumeTunnel _ | .addBackend _ _
  | .removeBackend _ _ | .forceHealthCheck _ _ => True
  | _ => False

section Uninterrupted

variable {adm : Admin} {cfg : Config} {sys sys' : System} {s : AdminState} {store : Store}

theorem RunsTo.refl (h : sys.shared = s.shared) : RunsTo cfg sys s :=
  ⟨[], sys, rfl, h, rfl⟩

theorem RunsTo.step {label : Label} (hstep : sys.step cfg label = some sys')
    (hhandlers : sys'.handlers = sys.handlers) (h : RunsTo cfg sys' s) : RunsTo cfg sys s := by
  obtain ⟨labels, sys'', hexec, hshared, hhandlers'⟩ := h
  exact ⟨label :: labels, sys'', by simp [exec, hstep, hexec], hshared,
    hhandlers'.trans hhandlers⟩

theorem runsTo_disconnecting {admins : List AdminTask} {muxes : List MuxId}
    (hadmins : sys.admins = .disconnecting muxes :: admins) :
    RunsTo cfg sys ⟨store, muxes.foldl Shared.signal sys.shared⟩ := by
  induction muxes generalizing sys with
  | nil => exact .refl rfl
  | cons mux muxes ih =>
      have hstep : sys.step cfg (.adminStep 0) = some { sys with
          shared := sys.shared.signal mux
          admins := .disconnecting muxes :: admins } := by
        simp [System.step, System.adminStep, hadmins]
      exact .step hstep rfl (ih rfl)

theorem runsTo_adminDisconnectTunnel (hlock : sys.shared.lock = none) (id : String) :
    RunsTo cfg sys (AdminState.adminDisconnectTunnel ⟨store, sys.shared⟩ id).2 := by
  unfold AdminState.adminDisconnectTunnel AdminState.onTunnel
  split
  · rename_i entry hlookup
    have hstep : sys.step cfg (.disconnectTunnel id) = some { sys with
        admins := .disconnecting [entry.mux] :: sys.admins } := by
      simp only [AList.lookup] at hlookup
      simp [System.step, hlock, Shared.holder, AList.lookup, hlookup]
    change RunsTo cfg sys ⟨store, [entry.mux].foldl Shared.signal sys.shared⟩
    exact .step hstep rfl (runsTo_disconnecting rfl)
  · exact .refl rfl

theorem runsTo_adminBulkDisconnect (hlock : sys.shared.lock = none) (clientIp : String) :
    RunsTo cfg sys (AdminState.adminBulkDisconnect ⟨store, sys.shared⟩ clientIp).2 := by
  unfold AdminState.adminBulkDisconnect
  dsimp only
  split
  · exact .refl rfl
  · split
    · exact .refl rfl
    · generalize AdminState.trimmed clientIp = targetIp
      have hstep : sys.step cfg (.bulkDisconnect targetIp) = some { sys with
          admins := .disconnecting (sys.shared.sessionsFrom targetIp) :: sys.admins } := by
        simp [System.step, hlock]
      exact .step hstep rfl (runsTo_disconnecting rfl)

theorem runsTo_setCustomDomain (hlock : sys.shared.lock = none) (tunnelId raw : String) :
    RunsTo adm.cfg sys (AdminState.setCustomDomain adm ⟨store, sys.shared⟩ tunnelId raw).2 := by
  unfold AdminState.setCustomDomain
  dsimp only
  split
  · exact .refl rfl
  · rename_i hname
    split
    · exact .refl rfl
    · rename_i hlive
      split
      · exact .refl rfl
      · rename_i hallowed
        have haccepted : domainAccepted adm.cfg sys.shared tunnelId raw =
            some (AdminState.normalDomain adm raw) := by
          unfold AdminState.normalDomain at hname hallowed ⊢
          simp only [domainAccepted]
          rw [if_neg hname, if_neg hlive, if_neg hallowed]
        have hstep : sys.step adm.cfg (.setCustomDomain tunnelId raw) = some { sys with
            admins := .bindingDomain (AdminState.normalDomain adm raw) tunnelId ::
              sys.admins } := by
          simp [System.step, hlock, haccepted]
        have hwrite : System.step adm.cfg { sys with
            admins := .bindingDomain (AdminState.normalDomain adm raw) tunnelId ::
              sys.admins } (.adminStep 0) = some { sys with
            shared := { sys.shared with
              customDomains := sys.shared.customDomains.insert
                (AdminState.normalDomain adm raw) ⟨tunnelId, sys.shared.holder tunnelId⟩ } } :=
          rfl
        exact .step hstep rfl (.step hwrite rfl (.refl rfl))

theorem runsTo_removeCustomDomain (tunnelId : String) :
    RunsTo cfg sys (AdminState.removeCustomDomain ⟨store, sys.shared⟩ tunnelId).2 := by
  have hstep : sys.step cfg (.removeCustomDomain tunnelId) = some { sys with
      shared := (AdminState.removeCustomDomain ⟨store, sys.shared⟩ tunnelId).2.shared } := rfl
  exact .step hstep rfl (.refl rfl)

theorem runsTo_guarded {headers : List (String × List UInt8)} {body : Reply × AdminState}
    (h : RunsTo cfg sys body.2) :
    RunsTo cfg sys (AdminState.guarded adm ⟨store, sys.shared⟩ headers body).2 := by
  unfold AdminState.guarded
  split
  · exact .refl rfl
  · exact h

theorem runsTo_onTunnel_view (id : String) :
    RunsTo cfg sys (AdminState.onTunnel ⟨store, sys.shared⟩ id fun _ =>
      AdminState.view ⟨store, sys.shared⟩).2 := by
  unfold AdminState.onTunnel
  split <;> exact .refl rfl

theorem runsTo_cfForward {env : AdminEnv} (status : Nat) (call : CfCall) :
    RunsTo cfg sys (AdminState.cfForward env ⟨store, sys.shared⟩ status call).2 := by
  unfold AdminState.cfForward
  split
  · exact .refl rfl
  · split <;> exact .refl rfl

/-- An admin request that is not interrupted, unless it edits an entry of the tunnel
map, is a run of the relay. -/
theorem runsTo_handle {env : AdminEnv} {headers : List (String × List UInt8)}
    (hlock : sys.shared.lock = none) (call : ApiCall) (hcall : ¬ call.EditsEntry) :
    RunsTo adm.cfg sys (AdminState.handle adm env ⟨store, sys.shared⟩ headers call).2 := by
  cases call with
  | createRoute req =>
      simp only [AdminState.handle, AdminState.createRoute]
      split
      · exact .refl rfl
      · split <;> exact .refl rfl
  | updateRoute id req =>
      simp only [AdminState.handle, AdminState.updateRoute]
      split <;> exact .refl rfl
  | adminBulkDisconnect clientIp =>
      exact runsTo_guarded (runsTo_adminBulkDisconnect hlock clientIp)
  | adminDisconnectTunnel id => exact runsTo_guarded (runsTo_adminDisconnectTunnel hlock id)
  | setCustomDomain id domain => exact runsTo_guarded (runsTo_setCustomDomain hlock id domain)
  | removeCustomDomain id => exact runsTo_guarded (runsTo_removeCustomDomain id)
  | setDdosConfig | adminPauseTunnel | adminResumeTunnel | addBackend | removeBackend
  | forceHealthCheck => exact absurd trivial hcall
  | getSeamlessTunnel id | getDdosConfig id | getTunnelRequests id | adminTunnelStats id
  | listBackends id => exact runsTo_guarded (runsTo_onTunnel_view id)
  | listSeamlessTunnels | statsHistoryHandler | adminAuditQuery | listCustomDomains
  | getLogs => exact runsTo_guarded (.refl rfl)
  | cfListTunnels | cfCreateTunnel | cfDeleteTunnel | cfTunnelToken | cfListZones | cfListDns
  | cfCreateDns | cfUpdateDns | cfDeleteDns => exact runsTo_cfForward _ _
  | _ => exact .refl rfl

end Uninterrupted

end Seamless.Relay
