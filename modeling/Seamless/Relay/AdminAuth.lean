import Seamless.Relay.AdminApi

/-!
What a request without the admin token can change. Every handler that touches the
tunnels checks the token first; the handlers of the proxy routes and of the
Cloudflare settings do not.
-/

namespace Seamless.Relay

open Seamless.Common
open Seamless.Library
open Seamless.Library.NetAddr
open Seamless.Library.Text

/-- `Authorization: Bearer <token>`, byte for byte. -/
def AdminRequest.Authorized (req : AdminRequest) (token : String) : Prop :=
  req.authorization = some (utf8 ("Bearer " ++ token))

instance (req : AdminRequest) (token : String) : Decidable (req.Authorized token) :=
  inferInstanceAs (Decidable (_ = _))

theorem authorized_of_checkAdminAuth {http : HeaderValues} {subtle : ConstantTimeEq}
    {req : AdminRequest} {token : String}
    (h : checkAdminAuth http subtle req.headers (some token) = none) : req.Authorized token := by
  simp only [checkAdminAuth] at h
  split at h
  · rename_i t hprovided
    obtain ⟨text, htext, hstrip⟩ := Option.bind_eq_some_iff.mp hprovided
    obtain ⟨value, hvalue, hdecode⟩ := Option.bind_eq_some_iff.mp htext
    obtain ⟨rest, hrest, rfl⟩ := Option.map_eq_some_iff.mp hstrip
    have htoken : utf8 (String.ofList rest) = utf8 token := by
      rw [← subtle.ctEq_eq_one]
      by_contra hne
      simp [hne] at h
    have hbytes : fromUtf8 value = some text := http.fromUtf8_of_toStr value text hdecode
    have hsplit : text = "Bearer " ++ String.ofList rest := by
      rw [← String.toList_inj, eq_append_of_stripPrefix hrest]
      simp
    rw [AdminRequest.Authorized, AdminRequest.authorization, hvalue, ← utf8_of_fromUtf8 hbytes,
      hsplit, utf8_injective htoken]
  · simp at h

theorem updateFirst_eq_self {α : Type} {p : α → Bool} {f : α → α} {l l' : List α}
    (h : updateFirst p f l = some l') :
    ∃ a, l.find? p = some a ∧ (l' = l ↔ f a = a) := by
  obtain ⟨front, a, rest, ha, hfront, rfl, rfl⟩ := updateFirst_eq_some_iff.mp h
  exact ⟨a, List.find?_eq_some_iff_append.mpr ⟨ha, front, rest, rfl, hfront⟩, by simp⟩

theorem updateFirst_eq_none {α : Type} {p : α → Bool} {f : α → α} {l : List α} :
    updateFirst p f l = none ↔ l.find? p = none := by
  induction l with
  | nil => simp [updateFirst]
  | cons b l ih => by_cases hb : p b <;> simp [updateFirst, hb, ih]

namespace AdminState

variable {adm : Admin} {env : AdminEnv} {s : AdminState}

theorem guarded_of_denied {headers : List (String × List UInt8)} {body : Reply × AdminState}
    (h : checkAdminAuth adm.http adm.cfg.subtle headers adm.adminToken ≠ none) : (s.guarded adm headers body).2 = s := by
  unfold guarded
  split
  · rfl
  · rename_i hpassed
    exact absurd hpassed h

theorem setRoutes_eq_self {routes : List ProxyRoute} :
    s.setRoutes routes = s ↔ routes = s.store.routes := by
  constructor
  · intro h
    rw [← h]
    rfl
  · rintro rfl
    rfl

/-- A handler without the token check that would change the store. -/
def UnguardedWrite (adm : Admin) (s : AdminState) : ApiCall → Prop
  | .createRoute req =>
      normalDomain adm req.domain ≠ "" ∧ trimmed req.upstreamUrl ≠ "" ∧
        ∀ r ∈ s.store.routes, r.domain ≠ normalDomain adm req.domain
  | .updateRoute id req =>
      ∃ r, s.store.routes.find? (fun r => r.id == id) = some r ∧
        (r.domain ≠ normalDomain adm req.domain ∨ r.upstreamUrl ≠ trimmed req.upstreamUrl ∨
          r.enabled ≠ req.enabled)
  | .deleteRoute id => ∃ r ∈ s.store.routes, r.id = id
  | .saveSettings req => s.store.cf ≠ some (s.mergedSettings req)
  | _ => False

theorem createRoute_unchanged (req : RouteReq) :
    (s.createRoute adm env req).2 = s ↔ ¬ UnguardedWrite adm s (.createRoute req) := by
  unfold createRoute
  dsimp only
  split
  · rename_i hempty
    simp only [Bool.or_eq_true, String.isEmpty_iff] at hempty
    simp only [UnguardedWrite, true_iff]
    tauto
  · rename_i hfilled
    simp only [Bool.or_eq_true, String.isEmpty_iff, not_or] at hfilled
    split
    · rename_i htaken
      obtain ⟨r, hr, hdomain⟩ := List.any_eq_true.mp htaken
      simp only [UnguardedWrite, true_iff]
      rintro ⟨-, -, hfree⟩
      exact hfree r hr (by simpa using hdomain)
    · rename_i hfree
      simp only [setRoutes_eq_self, UnguardedWrite]
      simp only [List.any_eq_true, not_exists, not_and, beq_iff_eq] at hfree
      simp only [List.append_right_eq_self, List.cons_ne_nil, false_iff, not_not]
      exact ⟨hfilled.1, hfilled.2, hfree⟩

theorem updatedRoute_eq_self {req : RouteReq} {r : ProxyRoute} :
    updatedRoute adm req r = r ↔
      ¬ (r.domain ≠ normalDomain adm req.domain ∨ r.upstreamUrl ≠ trimmed req.upstreamUrl ∨
          r.enabled ≠ req.enabled) := by
  cases r
  simp only [updatedRoute, ProxyRoute.mk.injEq, not_or, not_not, true_and, and_true]
  constructor
  · rintro ⟨hdomain, hurl, henabled⟩
    exact ⟨hdomain.symm, hurl.symm, henabled.symm⟩
  · rintro ⟨hdomain, hurl, henabled⟩
    exact ⟨hdomain.symm, hurl.symm, henabled.symm⟩

theorem updateRoute_unchanged (id : String) (req : RouteReq) :
    (s.updateRoute adm id req).2 = s ↔ ¬ UnguardedWrite adm s (.updateRoute id req) := by
  unfold updateRoute
  split
  · rename_i routes hroutes
    obtain ⟨r, hr, hiff⟩ := updateFirst_eq_self hroutes
    simp only [setRoutes_eq_self, UnguardedWrite, hiff, updatedRoute_eq_self, hr]
    simp
  · rename_i hnone
    simp [UnguardedWrite, updateFirst_eq_none.mp hnone]

theorem deleteRoute_unchanged (id : String) :
    (s.deleteRoute id).2 = s ↔ ¬ UnguardedWrite adm s (.deleteRoute id) := by
  simp only [deleteRoute, setRoutes_eq_self, UnguardedWrite, List.filter_eq_self]
  simp

theorem saveSettings_unchanged (req : SaveSettingsReq) :
    (s.saveSettings req).2 = s ↔ ¬ UnguardedWrite adm s (.saveSettings req) := by
  simp only [UnguardedWrite, ne_eq, not_not]
  constructor
  · intro h
    conv_lhs => rw [← h]
    rfl
  · intro h
    simp only [saveSettings, ← h]

theorem cfForward_unchanged (status : Nat) (call : CfCall) :
    (s.cfForward env status call).2 = s := by
  unfold cfForward
  split
  · rfl
  · split <;> rfl

theorem handle_unchanged {headers : List (String × List UInt8)} (call : ApiCall)
    (hdenied : checkAdminAuth adm.http adm.cfg.subtle headers adm.adminToken ≠ none) :
    (s.handle adm env headers call).2 = s ↔ ¬ UnguardedWrite adm s call := by
  cases call with
  | createRoute req => exact createRoute_unchanged req
  | updateRoute id req => exact updateRoute_unchanged id req
  | deleteRoute id => exact deleteRoute_unchanged id
  | saveSettings req => exact saveSettings_unchanged req
  | _ => simp [handle, UnguardedWrite, guarded_of_denied hdenied, cfForward_unchanged, view]

def ReachesUnguardedWrite (adm : Admin) (x : Extractors) (s : AdminState)
    (req : AdminRequest) : Prop :=
  ipInCidr req.peer adm.adminCidrs = true ∧
    ∃ call, router x req = .ok call ∧ UnguardedWrite adm s call

/-- With a token configured and not presented, a request leaves the state as it was
exactly when it is not one of the unguarded writes. -/
theorem serve_unchanged_iff (adm : Admin) (env : AdminEnv) (x : Extractors) (s : AdminState)
    (req : AdminRequest) (token : String) (htoken : adm.adminToken = some token)
    (hauth : ¬ req.Authorized token) :
    (s.serve adm env x req).2 = s ↔ ¬ ReachesUnguardedWrite adm x s req := by
  have hdenied : checkAdminAuth adm.http adm.cfg.subtle req.headers adm.adminToken ≠ none := by
    rw [htoken]
    exact fun hpassed => hauth (authorized_of_checkAdminAuth hpassed)
  unfold serve ReachesUnguardedWrite
  cases hip : ipInCidr req.peer adm.adminCidrs with
  | false => simp
  | true =>
      cases hroute : router x req with
      | error status => simp
      | ok call => simpa using handle_unchanged call hdenied

end AdminState

def lockedAdmin : Admin := ⟨.unlimited "example.com", .plain, some "secret", []⟩

def emptyState : AdminState := ⟨⟨[], none⟩, .initial .disabled⟩

def quietEnv : AdminEnv where
  freshId := "8f14e45f-ceea-467f-a7d4-0b5f2f1f2f1f"
  unixNow := 0
  probe := fun _ => false
  cloudflare := fun _ _ => .error "unreachable"

/-- `POST /api/routes` without an `Authorization` header. -/
def routeRequest : AdminRequest where
  peer := documentationIp
  method := .post
  path := ["api", "routes"]
  query := ""
  headers := [("content-type", utf8 "application/json")]
  body := utf8 "\x7b\"domain\":\"demo.example.com\",\"upstream_url\":\"192.0.2.66:80\"\x7d"

/-- `POST /admin/tunnels/demo/pause` without an `Authorization` header. -/
def pauseRequest : AdminRequest where
  peer := documentationIp
  method := .post
  path := ["admin", "tunnels", "demo", "pause"]
  query := ""
  headers := []
  body := []

/-- The decoders, as far as the two requests need them. -/
def plainExtractors : Extractors where
  param := .ok
  routeReq := fun req =>
    if req.body = routeRequest.body then .ok ⟨"demo.example.com", "192.0.2.66:80", true⟩
    else .error 422
  ddosConfigReq := fun _ => .error 422
  clientIp := fun _ => .error 422
  domain := fun _ => .error 422
  addBackendReq := fun _ => .error 422
  saveSettingsReq := fun _ => .error 422
  tunnelName := fun _ => .error 422
  dnsRecord := fun _ => .error 422
  auditQuery := fun _ => .ok (none, none)
  requestLog := fun _ => .ok none

theorem serve_unchanged_iff_withoutToken :
    (emptyState.serve lockedAdmin quietEnv plainExtractors pauseRequest).2 = emptyState ∧
    (emptyState.serve lockedAdmin quietEnv plainExtractors routeRequest).2 ≠ emptyState := by
  constructor
  · refine (AdminState.serve_unchanged_iff lockedAdmin quietEnv plainExtractors emptyState
      pauseRequest "secret" rfl (by decide)).mpr ?_
    rintro ⟨-, call, hroute, hwrite⟩
    have hcall : router plainExtractors pauseRequest = .ok (.adminPauseTunnel "demo") := rfl
    rw [hcall] at hroute
    cases hroute
    exact hwrite
  · intro hunchanged
    refine (AdminState.serve_unchanged_iff lockedAdmin quietEnv plainExtractors emptyState
      routeRequest "secret" rfl (by decide)).mp hunchanged ⟨rfl, _, rfl, ?_, ?_, ?_⟩
    · decide +kernel
    · decide +kernel
    · intro r hr
      cases hr

theorem not_serve_unchanged_createRoute :
    ¬ ∀ (adm : Admin) (env : AdminEnv) (x : Extractors) (s : AdminState) (req : AdminRequest)
      (token : String), adm.adminToken = some token → ¬ req.Authorized token →
      (s.serve adm env x req).2 = s := by
  intro hall
  have hunchanged := hall lockedAdmin quietEnv plainExtractors emptyState routeRequest "secret"
    rfl (by decide)
  have hroutes : (emptyState.serve lockedAdmin quietEnv plainExtractors
      routeRequest).2.store.routes.length = 1 := by
    decide +kernel
  rw [hunchanged] at hroutes
  cases hroutes

end Seamless.Relay
