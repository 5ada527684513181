import Seamless.Relay.AdminAuth
import Seamless.Relay.HostRouting

/-!
The proxy routes of the store under any sequence of admin requests. Creating a route
checks its domain and its upstream against the table, updating one does not.
-/

namespace Seamless.Relay

open Seamless.Library
open Seamless.Library.Text
open Seamless.Library.TransitionSystem

/-- A request that changes the routes; `env` has the fresh id and the time. -/
inductive RouteMove where
  | create (env : AdminEnv) (req : RouteReq)
  | update (id : String) (req : RouteReq)
  | delete (id : String)

def RouteMove.step (adm : Admin) (s : AdminState) : RouteMove → Option AdminState
  | .create env req => some (s.createRoute adm env req).2
  | .update id req => some (s.updateRoute adm id req).2
  | .delete id => some (s.deleteRoute id).2

structure RouteOk (adm : Admin) (r : ProxyRoute) : Prop where
  domain_ne : r.domain ≠ ""
  domain_trimmed : AdminState.trimmed r.domain = r.domain
  domain_lower : adm.cfg.caseMap.lowerString r.domain = r.domain
  upstream_ne : r.upstreamUrl ≠ ""

/-- The routes that the ingress would take for a host. -/
def Ingress.matching (ing : Ingress) (host : String) : List ProxyRoute :=
  ing.routes.filter fun r => r.enabled && ing.caseMap.lowerString r.domain == ing.lowerHost host

/-- The table is sound, and so no route can shadow another one. -/
structure RoutesSound (adm : Admin) (s : AdminState) : Prop where
  each : ∀ r ∈ s.store.routes, RouteOk adm r
  distinct : (s.store.routes.map ProxyRoute.domain).Nodup
  unambiguous : ∀ (ing : Ingress) (host : String), ing.routes = s.store.routes →
    ing.caseMap = adm.cfg.caseMap → (ing.matching host).length ≤ 1 ∧
      ∀ routes, routes.Perm ing.routes →
        Ingress.target { ing with routes := routes } host = ing.target host

/-- The checks that creating a route makes, made of an update: the route has a domain
and an upstream, and no other route has the domain. -/
def RouteMove.checked (adm : Admin) (s : AdminState) : RouteMove → Bool
  | .update id req =>
      match s.store.routes.find? fun r => r.id == id with
      | some r =>
          let domain := AdminState.normalDomain adm req.domain
          !domain.isEmpty && !(AdminState.trimmed req.upstreamUrl).isEmpty &&
            (domain == r.domain || !s.store.routes.any fun r => r.domain == domain)
      | none => true
  | .create _ _ | .delete _ => true

section Table

variable {adm : Admin} {env : AdminEnv} {s s' : AdminState} {routes : List ProxyRoute}

/-- The part of soundness that is about the table alone. -/
def TableSound (adm : Admin) (routes : List ProxyRoute) : Prop :=
  (∀ r ∈ routes, RouteOk adm r) ∧ (routes.map ProxyRoute.domain).Nodup

theorem eq_of_matching (h : TableSound adm routes) {r r' : ProxyRoute} {host : String}
    (hr : r ∈ routes) (hr' : r' ∈ routes) (hhost : adm.cfg.caseMap.lowerString r.domain = host)
    (hhost' : adm.cfg.caseMap.lowerString r'.domain = host) : r = r' := by
  rw [(h.1 r hr).domain_lower] at hhost
  rw [(h.1 r' hr').domain_lower] at hhost'
  exact List.inj_on_of_nodup_map h.2 hr hr' (hhost.trans hhost'.symm)

theorem length_filter_le_one {α : Type} {p : α → Bool} {l : List α} (hnodup : l.Nodup)
    (h : ∀ a ∈ l, ∀ b ∈ l, p a = true → p b = true → a = b) : (l.filter p).length ≤ 1 := by
  rcases hl : l.filter p with _ | ⟨a, _ | ⟨b, rest⟩⟩
  · simp
  · simp
  · have hmem : ∀ c ∈ l.filter p, c ∈ l ∧ p c = true := fun c hc => List.mem_filter.mp hc
    rw [hl] at hmem
    obtain ⟨ha, hpa⟩ := hmem a (by simp)
    obtain ⟨hb, hpb⟩ := hmem b (by simp)
    have hdup := hnodup.filter p
    rw [hl, h a ha b hb hpa hpb] at hdup
    simp at hdup

theorem find?_perm {α : Type} {p : α → Bool} {l l' : List α} (hperm : l'.Perm l)
    (h : ∀ a ∈ l, ∀ b ∈ l, p a = true → p b = true → a = b) : l'.find? p = l.find? p := by
  cases hfind : l.find? p with
  | none =>
      rw [List.find?_eq_none] at hfind ⊢
      exact fun a ha => hfind a (hperm.mem_iff.mp ha)
  | some a =>
      have ha : a ∈ l := List.mem_of_find?_eq_some hfind
      have hpa : p a = true := List.find?_some hfind
      cases hfind' : l'.find? p with
      | none => exact absurd hpa (List.find?_eq_none.mp hfind' a (hperm.mem_iff.mpr ha))
      | some b =>
          have hb : b ∈ l := hperm.mem_iff.mp (List.mem_of_find?_eq_some hfind')
          rw [h a ha b hb hpa (List.find?_some hfind')]

theorem routesSound_iff : RoutesSound adm s ↔ TableSound adm s.store.routes := by
  constructor
  · intro h
    exact ⟨h.each, h.distinct⟩
  · intro h
    refine ⟨h.1, h.2, ?_⟩
    intro ing host hroutes hcase
    have honly : ∀ r ∈ ing.routes, ∀ r' ∈ ing.routes,
        (r.enabled && ing.caseMap.lowerString r.domain == ing.lowerHost host) = true →
        (r'.enabled && ing.caseMap.lowerString r'.domain == ing.lowerHost host) = true →
        r = r' := by
      intro r hr r' hr' hmatch hmatch'
      rw [hroutes] at hr hr'
      rw [hcase, Bool.and_eq_true, beq_iff_eq] at hmatch hmatch'
      exact eq_of_matching h hr hr' hmatch.2 hmatch'.2
    constructor
    · apply length_filter_le_one ?_ honly
      rw [hroutes]
      exact h.2.of_map
    · intro routes hperm
      have hmatched : Ingress.matchedRoute { ing with routes := routes } host =
          ing.matchedRoute host := find?_perm hperm honly
      rw [Ingress.target, Ingress.target, hmatched]
      rfl

theorem tableSound_nil (adm : Admin) : TableSound adm [] := by
  constructor <;> simp

theorem tableSound_sublist {routes' : List ProxyRoute} (h : TableSound adm routes)
    (hsub : routes'.Sublist routes) : TableSound adm routes' := by
  constructor
  · exact fun r hr => h.1 r (hsub.subset hr)
  · exact h.2.sublist (hsub.map _)

theorem tableSound_insert {front rest : List ProxyRoute} (h : TableSound adm (front ++ rest))
    (r : ProxyRoute) : TableSound adm (front ++ r :: rest) ↔
      RouteOk adm r ∧ r.domain ∉ (front ++ rest).map ProxyRoute.domain := by
  have hperm : (front ++ r :: rest).Perm (r :: (front ++ rest)) := List.perm_middle
  have hdomains := (hperm.map ProxyRoute.domain).nodup_iff
  rw [List.map_cons, List.nodup_cons] at hdomains
  constructor
  · rintro ⟨heach, hnodup⟩
    exact ⟨heach r (by simp), (hdomains.mp hnodup).1⟩
  · rintro ⟨hr, hnew⟩
    refine ⟨?_, hdomains.mpr ⟨hnew, h.2⟩⟩
    intro r' hr'
    rcases List.mem_cons.mp (hperm.mem_iff.mp hr') with rfl | hold
    · exact hr
    · exact h.1 r' hold

theorem checked_update_iff {id : String} {req : RouteReq} {r : ProxyRoute}
    (hfind : (s.store.routes.find? fun r => r.id == id) = some r) :
    (RouteMove.update id req).checked adm s = true ↔
      (AdminState.normalDomain adm req.domain).isEmpty = false ∧
      (AdminState.trimmed req.upstreamUrl).isEmpty = false ∧
      (AdminState.normalDomain adm req.domain = r.domain ∨
        AdminState.normalDomain adm req.domain ∉ s.store.routes.map ProxyRoute.domain) := by
  simp only [RouteMove.checked, hfind]
  simp [and_assoc]

section Normal

variable (hcase : adm.cfg.caseMap.Regular)
include hcase

theorem trimmed_normalDomain (domain : String) :
    AdminState.trimmed (AdminState.normalDomain adm domain) =
      AdminState.normalDomain adm domain := by
  have htrim := hcase.keeps_trimmed (trim domain.toList) (trim_trim _)
  simp [AdminState.trimmed, AdminState.normalDomain, CaseMap.lowerString, htrim]

theorem lower_normalDomain (domain : String) :
    adm.cfg.caseMap.lowerString (AdminState.normalDomain adm domain) =
      AdminState.normalDomain adm domain := by
  simp [AdminState.normalDomain, CaseMap.lowerString, hcase.idempotent]

theorem routeOk_iff {r : ProxyRoute} {domain : String}
    (hdomain : r.domain = AdminState.normalDomain adm domain) :
    RouteOk adm r ↔ r.domain.isEmpty = false ∧ r.upstreamUrl.isEmpty = false := by
  have hempty : ∀ text : String, text.isEmpty = false ↔ text ≠ "" := by simp
  rw [hempty, hempty]
  constructor
  · intro h
    exact ⟨h.domain_ne, h.upstream_ne⟩
  · rintro ⟨hne, hupstream⟩
    refine ⟨hne, ?_, ?_, hupstream⟩
    · rw [hdomain]
      exact trimmed_normalDomain hcase domain
    · rw [hdomain]
      exact lower_normalDomain hcase domain

theorem tableSound_createRoute (h : TableSound adm s.store.routes) (env : AdminEnv)
    (req : RouteReq) : TableSound adm (s.createRoute adm env req).2.store.routes := by
  unfold AdminState.createRoute
  dsimp only
  split
  · exact h
  · rename_i hfilled
    split
    · exact h
    · rename_i hnew
      have hend : TableSound adm (s.store.routes ++ []) := by simpa using h
      apply (tableSound_insert hend _).mpr
      constructor
      · apply (routeOk_iff hcase rfl).mpr
        simpa using hfilled
      · simpa using hnew

/-- What an update leaves behind is sound exactly when it passes the checks. -/
theorem tableSound_updateRoute_iff (h : TableSound adm s.store.routes) (id : String)
    (req : RouteReq) : TableSound adm (s.updateRoute adm id req).2.store.routes ↔
      (RouteMove.update id req).checked adm s = true := by
  unfold AdminState.updateRoute
  split
  · rename_i routes hroutes
    obtain ⟨front, r, rest, hr, hfront, hsplit, rfl⟩ := updateFirst_eq_some_iff.mp hroutes
    have hfind : (s.store.routes.find? fun r => r.id == id) = some r :=
      List.find?_eq_some_iff_append.mpr ⟨hr, front, rest, hsplit, hfront⟩
    have hothers : TableSound adm (front ++ rest) := by
      apply tableSound_sublist h
      rw [hsplit]
      simp
    have hown : r.domain ∉ (front ++ rest).map ProxyRoute.domain := by
      rw [hsplit] at h
      exact ((tableSound_insert hothers r).mp h).2
    have hnew : ∀ domain, domain ∉ (front ++ rest).map ProxyRoute.domain ↔
        domain = r.domain ∨ domain ∉ s.store.routes.map ProxyRoute.domain := by
      intro domain
      have hmem : domain ∈ s.store.routes.map ProxyRoute.domain ↔
          domain = r.domain ∨ domain ∈ (front ++ rest).map ProxyRoute.domain := by
        rw [hsplit]
        simp only [List.map_append, List.map_cons, List.mem_append, List.mem_cons]
        exact or_left_comm
      by_cases hsame : domain = r.domain
      · rw [hsame]
        exact ⟨fun _ => .inl rfl, fun _ => hown⟩
      · rw [hmem, not_or]
        simp [hsame]
    change TableSound adm (front ++ AdminState.updatedRoute adm req r :: rest) ↔ _
    rw [tableSound_insert hothers, routeOk_iff hcase rfl, hnew, checked_update_iff hfind, and_assoc]
    rfl
  · rename_i hnone
    have hfind := updateFirst_eq_none.mp hnone
    simp [RouteMove.checked, hfind, h]

end Normal

theorem tableSound_deleteRoute (h : TableSound adm s.store.routes) (id : String) :
    TableSound adm (s.deleteRoute id).2.store.routes :=
  tableSound_sublist h List.filter_sublist

end Table

theorem tableSound_step_iff {adm : Admin} {s s' : AdminState} {move : RouteMove}
    (hcase : adm.cfg.caseMap.Regular) (h : TableSound adm s.store.routes)
    (hstep : move.step adm s = some s') :
    TableSound adm s'.store.routes ↔ move.checked adm s = true := by
  cases move with
  | create env req =>
      obtain rfl := Option.some.inj hstep
      exact ⟨fun _ => rfl, fun _ => tableSound_createRoute hcase h env req⟩
  | update id req =>
      obtain rfl := Option.some.inj hstep
      exact tableSound_updateRoute_iff hcase h id req
  | delete id =>
      obtain rfl := Option.some.inj hstep
      exact ⟨fun _ => rfl, fun _ => tableSound_deleteRoute h id⟩

/-- From an empty table the routes stay sound, all the way, exactly when every update
passes the checks that creating a route makes. -/
theorem routesSound_along_iff (adm : Admin) (hcase : adm.cfg.caseMap.Regular) (start : AdminState)
    (hstart : start.store.routes = []) (moves : List RouteMove) (s : AdminState)
    (hrun : FreeRun (RouteMove.step adm) start moves s) :
    HoldsAlong (RouteMove.step adm) (RoutesSound adm) start moves ↔
      Run (RouteMove.step adm)
        (fun t move => move.checked adm t = true) start moves s := by
  apply hrun.holdsAlong_iff (I := fun _ => True) trivial (fun _ _ _ _ _ => trivial)
  · rw [routesSound_iff, hstart]
    exact tableSound_nil adm
  · intro t move u _ hsound hstep
    rw [routesSound_iff] at hsound ⊢
    exact tableSound_step_iff hcase hsound hstep

def openAdmin : Admin := ⟨.unlimited "relay.test", .plain, none, []⟩

/-- The second route takes the first one's domain. -/
def shadowing : List RouteMove :=
  [.create { quietEnv with freshId := "1" } ⟨"a.test", "http://10.0.0.1:80", true⟩,
    .create { quietEnv with freshId := "2" } ⟨"b.test", "http://10.0.0.2:80", true⟩,
    .update "2" ⟨" A.test", "http://10.0.0.2:80", true⟩]

theorem updateRoute_shadows :
    ∃ s, FreeRun (RouteMove.step openAdmin) emptyState shadowing s ∧ ¬ RoutesSound openAdmin s := by
  have hexec : (exec (RouteMove.step openAdmin) emptyState shadowing).map
      (fun s => s.store.routes.map ProxyRoute.domain) = some ["a.test", "a.test"] := by
    decide +kernel
  obtain ⟨s, hrun, hdomains⟩ := exists_freeRun hexec
  refine ⟨s, hrun, ?_⟩
  intro hsound
  have hdistinct := hsound.distinct
  rw [hdomains] at hdistinct
  simp at hdistinct

def routeMoved : List RouteMove :=
  [.create { quietEnv with freshId := "1" } ⟨"a.test", "http://10.0.0.1:80", true⟩,
    .update "1" ⟨" B.test", "http://10.0.0.2:80", true⟩,
    .create { quietEnv with freshId := "2" } ⟨"A.test", "http://10.0.0.1:80", true⟩,
    .delete "1"]

theorem routesSound_along_routeMoved :
    HoldsAlong (RouteMove.step openAdmin) (RoutesSound openAdmin) emptyState routeMoved := by
  have hexec : (execGuarded (RouteMove.step openAdmin)
      (fun t move => move.checked openAdmin t = true) emptyState routeMoved).map
        (fun s => s.store.routes.map ProxyRoute.domain) = some ["a.test"] := by
    decide +kernel
  obtain ⟨s, hrun, -⟩ := exists_run hexec
  apply (routesSound_along_iff openAdmin CaseMap.ascii_regular emptyState rfl _ s hrun.free).mpr
  exact hrun

end Seamless.Relay
