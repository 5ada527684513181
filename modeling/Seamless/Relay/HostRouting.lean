import Seamless.Library.AsciiCase
import Seamless.Relay.HttpOwnership
import Seamless.Relay.Ingress

/-!
Which target `route_http` picks for a host. Proxy routes and custom domains are
looked up in lower case; a name under the base domain is taken as it is spelled,
and so is the name that a client registers.
-/

namespace Seamless.Relay

open Seamless.Common
open Seamless.Library
open Seamless.Library.Text
open Seamless.Library.TransitionSystem

/-- The part of a tunnel's public URL that a browser sends as its host. -/
def hostName (sub base : String) : String := sub ++ "." ++ base

inductive Target where
  | upstream (route : ProxyRoute)
  | tunnel (key : String) (entry : TunnelEntry)
  | noRoute

namespace Ingress

def matchedRoute (ing : Ingress) (host : String) : Option ProxyRoute :=
  ing.routes.find? fun r => r.enabled && ing.caseMap.lowerString r.domain == ing.lowerHost host

def target (ing : Ingress) (host : String) : Target :=
  match ing.matchedRoute host with
  | some route => .upstream route
  | none =>
      match (ing.tunnelKey host).bind fun sub =>
          (ing.tunnels.lookup sub).map fun entry => (sub, entry) with
      | some (sub, entry) => .tunnel sub entry
      | none => .noRoute

def routeTo (ing : Ingress) (conn : Connection) (host : String) (head : List UInt8)
    (rest : ByteSource) : Target → Outcome × TunnelMap
  | .upstream route => (ing.routeToUpstream conn host route.upstreamUrl head rest, ing.tunnels)
  | .tunnel sub entry => ing.routeToTunnel conn sub entry head rest
  | .noRoute =>
      (.responded (errorResponse "502 Bad Gateway"
        ("seamless: no route for '" ++ host ++ "'\n") conn.isHttps), ing.tunnels)

end Ingress

section Target

variable {ing : Ingress} {host host' k : String} {entry : TunnelEntry}

theorem Ingress.routeRequest_eq {conn : Connection} {head : List UInt8} {rest : ByteSource}
    (hhost : parseHostHeader head = some host)
    (hhealth : isHealthCheck (parseRequestLine head) = false)
    (hsize : ing.declaredTooLarge head = none) :
    ing.routeRequest conn head rest = ing.routeTo conn host head rest (ing.target host) := by
  have hurl : ing.upstreamUrl host = (ing.matchedRoute host).map (·.upstreamUrl) := rfl
  simp only [routeRequest, hhost, hhealth, hsize, hurl, target, Bool.false_eq_true, if_false]
  cases ing.matchedRoute host with
  | some route => rfl
  | none =>
      dsimp only [Option.map_none]
      generalize (ing.tunnelKey host).bind
        (fun sub => (ing.tunnels.lookup sub).map fun entry => (sub, entry)) = found
      rcases found with _ | ⟨sub, entry⟩ <;> rfl

theorem Ingress.target_eq_tunnel : ing.target host = .tunnel k entry ↔
    ing.matchedRoute host = none ∧ ing.tunnelKey host = some k ∧
      ing.tunnels.lookup k = some entry := by
  unfold target
  cases ing.matchedRoute host with
  | some route => simp
  | none =>
      cases ing.tunnelKey host with
      | none => simp
      | some sub =>
          cases hlookup : ing.tunnels.lookup sub with
          | none =>
              simp only [Option.bind_some, hlookup, Option.map_none, reduceCtorEq, true_and,
                Option.some.injEq, false_iff]
              rintro ⟨rfl, hk⟩
              rw [hlookup] at hk
              cases hk
          | some e =>
              simp only [Option.bind_some, hlookup, Option.map_some, Target.tunnel.injEq, true_and,
                Option.some.injEq]
              constructor
              · rintro ⟨rfl, rfl⟩
                exact ⟨rfl, hlookup⟩
              · rintro ⟨rfl, hk⟩
                exact ⟨rfl, Option.some.inj (hlookup.symm.trans hk)⟩

theorem Ingress.target_eq_upstream {route : ProxyRoute} :
    ing.target host = .upstream route ↔ ing.matchedRoute host = some route := by
  unfold target
  cases ing.matchedRoute host with
  | some route' => simp
  | none =>
      dsimp only
      split <;> simp

theorem hostOnly_toList (host : String) :
    (hostOnly host).toList = (splitAt ':' host.toList).1 := by
  simp [hostOnly]

theorem colon_notMem_hostOnly (host : String) : ':' ∉ (hostOnly host).toList := by
  rw [hostOnly_toList]
  exact notMem_splitAt_fst ':' host.toList

theorem hostOnly_append {host : String} (h : ':' ∉ host.toList) (more : String) :
    hostOnly (host ++ more) = host ++ hostOnly more := by
  simp [hostOnly, splitAt_append h]

theorem hostOnly_of_notMem (h : ':' ∉ host.toList) : hostOnly host = host := by
  have happend := hostOnly_append h ""
  simpa [hostOnly, splitAt] using happend

theorem hostOnly_congr (h : eqIgnoreAsciiCase host.toList host'.toList = true) :
    eqIgnoreAsciiCase (hostOnly host).toList (hostOnly host').toList = true := by
  rw [hostOnly_toList, hostOnly_toList]
  exact eqIgnoreAsciiCase_splitAt (by decide) h

theorem extractSubdomain_eq_some {base sub : String} :
    extractSubdomain host base = some sub ↔ hostOnly host = hostName sub base := by
  have htext : hostOnly host = hostName sub base ↔
      (hostOnly host).toList = sub.toList ++ '.' :: base.toList := by
    rw [← String.toList_inj]
    simp [hostName]
  rw [htext, ← stripSuffix_eq_some]
  simp only [extractSubdomain, Option.map_eq_some_iff]
  constructor
  · rintro ⟨rest, hrest, rfl⟩
    simpa using hrest
  · intro hrest
    exact ⟨sub.toList, hrest, by simp⟩

theorem extractSubdomain_ne_tcpKey (host base : String) (port : UInt16) :
    extractSubdomain host base ≠ some (tcpKey port) := by
  intro h
  apply colon_notMem_hostOnly host
  rw [extractSubdomain_eq_some.mp h]
  simp [hostName, colon_mem_tcpKey port]

theorem Ingress.target_congr (h : hostOnly host = hostOnly host') :
    ing.target host = ing.target host' := by
  have hlower : ing.lowerHost host = ing.lowerHost host' := by
    rw [lowerHost, lowerHost, h]
  have hextract : extractSubdomain host ing.baseDomain = extractSubdomain host' ing.baseDomain := by
    rw [extractSubdomain, extractSubdomain, h]
  have hroute : ing.matchedRoute host = ing.matchedRoute host' := by
    rw [matchedRoute, matchedRoute, hlower]
  have hkey : ing.tunnelKey host = ing.tunnelKey host' := by
    rw [tunnelKey, tunnelKey, hlower, hextract]
  rw [target, target, hroute, hkey]

end Target

/-- An HTTP tunnel is registered under `k`. -/
def Ingress.HttpLive (ing : Ingress) (k : String) : Prop :=
  (ing.tunnels.lookup k).isSome ∧ ∀ port, k ≠ tcpKey port

/-- Routing does not look at the case of ASCII letters. -/
structure IgnoresCase (ing : Ingress) : Prop where
  sameTarget : ∀ host host', eqIgnoreAsciiCase host.toList host'.toList = true →
    ing.target host = ing.target host'
  lowercase : ∀ k, ing.HttpLive k → ∃ entry, ing.tunnels.lookup k = some entry ∧
    ing.target (String.ofList (asciiLower (hostName k ing.baseDomain).toList)) = .tunnel k entry
  distinct : ∀ k k', ing.HttpLive k → ing.HttpLive k' →
    eqIgnoreAsciiCase k.toList k'.toList = true → k = k'

/-- No proxy route takes the host name of `k`; a custom domain gives it to `k`, or
none does and it has only one spelling. -/
def CaseSafe (ing : Ingress) (k : String) : Prop :=
  ing.matchedRoute (hostName k ing.baseDomain) = none ∧
    match ing.customDomains.lookup (ing.lowerHost (hostName k ing.baseDomain)) with
    | some b => b.key = k
    | none => ':' ∉ (hostName k ing.baseDomain).toList ∧
        NoLetters (hostName k ing.baseDomain).toList

section Case

variable {ing : Ingress} {host host' k : String} {entry : TunnelEntry}

theorem Ingress.lowerHost_congr (hfolds : ing.caseMap.Folds)
    (h : eqIgnoreAsciiCase host.toList host'.toList = true) :
    ing.lowerHost host = ing.lowerHost host' := by
  simp only [lowerHost, CaseMap.lowerString]
  rw [hfolds _ _ (hostOnly_congr h)]

theorem Ingress.lowerHost_hostOnly (host : String) :
    ing.lowerHost (hostOnly host) = ing.lowerHost host := by
  rw [lowerHost, lowerHost, hostOnly_of_notMem (colon_notMem_hostOnly host)]

theorem Ingress.tunnelKey_of_custom {b : Binding}
    (h : ing.customDomains.lookup (ing.lowerHost host) = some b) :
    ing.tunnelKey host = some b.key := by
  simp [tunnelKey, h]

theorem Ingress.tunnelKey_of_subdomain
    (h : ing.customDomains.lookup (ing.lowerHost host) = none) :
    ing.tunnelKey host = extractSubdomain host ing.baseDomain := by
  simp [tunnelKey, h]

theorem noLetters_of_subdomain (hsafe : ∀ k, ing.HttpLive k → CaseSafe ing k)
    (hcustom : ing.customDomains.lookup (ing.lowerHost host) = none)
    (htarget : ing.target host = .tunnel k entry) : NoLetters (hostOnly host).toList := by
  obtain ⟨-, hkey, hlookup⟩ := Ingress.target_eq_tunnel.mp htarget
  rw [Ingress.tunnelKey_of_subdomain hcustom] at hkey
  have hname := extractSubdomain_eq_some.mp hkey
  have hlive : ing.HttpLive k := by
    refine ⟨by simp [hlookup], ?_⟩
    rintro port rfl
    exact extractSubdomain_ne_tcpKey host ing.baseDomain port hkey
  obtain ⟨-, hsafe⟩ := hsafe k hlive
  rw [← hname, Ingress.lowerHost_hostOnly, hcustom] at hsafe
  exact hsafe.2

theorem sameTarget_of_caseSafe (hfolds : ing.caseMap.Folds)
    (hsafe : ∀ k, ing.HttpLive k → CaseSafe ing k)
    (h : eqIgnoreAsciiCase host.toList host'.toList = true) :
    ing.target host = ing.target host' := by
  have hlower := Ingress.lowerHost_congr hfolds h
  have hroute : ing.matchedRoute host = ing.matchedRoute host' := by
    rw [Ingress.matchedRoute, Ingress.matchedRoute, hlower]
  cases hcustom : ing.customDomains.lookup (ing.lowerHost host) with
  | some b =>
      have hkey : ing.tunnelKey host = ing.tunnelKey host' := by
        rw [Ingress.tunnelKey_of_custom hcustom, Ingress.tunnelKey_of_custom (hlower ▸ hcustom)]
      rw [Ingress.target, Ingress.target, hroute, hkey]
  | none =>
      -- Where one of the two hosts leads to a tunnel, both are the same text.
      have hsame : ∀ x x' k entry, eqIgnoreAsciiCase x.toList x'.toList = true →
          ing.customDomains.lookup (ing.lowerHost x) = none → ing.target x = .tunnel k entry →
          ing.target x' = ing.target x := by
        intro x x' k entry hx hnone htarget
        have hletters := noLetters_of_subdomain hsafe hnone htarget
        apply Ingress.target_congr
        rw [← String.toList_inj]
        exact hletters.eq_of_eqIgnoreAsciiCase (hostOnly_congr hx)
      cases htarget : ing.target host with
      | tunnel k entry => rw [hsame _ _ _ _ h hcustom htarget, htarget]
      | upstream route =>
          rw [Ingress.target_eq_upstream, hroute, ← Ingress.target_eq_upstream] at htarget
          exact htarget.symm
      | noRoute =>
          cases htarget' : ing.target host' with
          | tunnel k entry =>
              have hback := hsame _ _ _ _ (eqIgnoreAsciiCase_symm h) (hlower ▸ hcustom) htarget'
              rw [htarget, htarget'] at hback
              exact hback
          | upstream route =>
              rw [Ingress.target_eq_upstream, ← hroute, ← Ingress.target_eq_upstream,
                htarget] at htarget'
              exact htarget'
          | noRoute => rfl

theorem target_hostName_of_caseSafe (hlookup : ing.tunnels.lookup k = some entry)
    (hsafe : CaseSafe ing k) : ing.target (hostName k ing.baseDomain) = .tunnel k entry := by
  obtain ⟨hroute, hkey⟩ := hsafe
  refine Ingress.target_eq_tunnel.mpr ⟨hroute, ?_, hlookup⟩
  split at hkey
  · rename_i b hcustom
    rw [Ingress.tunnelKey_of_custom hcustom, hkey]
  · rename_i hcustom
    rw [Ingress.tunnelKey_of_subdomain hcustom, extractSubdomain_eq_some]
    exact hostOnly_of_notMem hkey.1

theorem caseSafe_of_ignoresCase (hfolds : ing.caseMap.Folds) (hcase : IgnoresCase ing)
    (hlive : ing.HttpLive k) : CaseSafe ing k := by
  obtain ⟨entry, -, hlower⟩ := hcase.lowercase k hlive
  generalize hname : hostName k ing.baseDomain = name at hlower
  have hall : ∀ host, eqIgnoreAsciiCase host.toList name.toList = true →
      ing.target host = .tunnel k entry := by
    intro host hhost
    rw [← hlower]
    apply hcase.sameTarget
    simp_all [eqIgnoreAsciiCase, asciiLower]
  have hself : ing.target name = .tunnel k entry := hall name (by simp [eqIgnoreAsciiCase])
  obtain ⟨hroute, hkey, -⟩ := Ingress.target_eq_tunnel.mp hself
  rw [CaseSafe, hname]
  refine ⟨hroute, ?_⟩
  split
  · rename_i b hcustom
    rw [Ingress.tunnelKey_of_custom hcustom] at hkey
    exact Option.some.inj hkey
  · rename_i hcustom
    have hone : ∀ host, eqIgnoreAsciiCase host.toList name.toList = true → host = name := by
      intro host hhost
      obtain ⟨-, hkey, -⟩ := Ingress.target_eq_tunnel.mp (hall host hhost)
      rw [← Ingress.lowerHost_congr hfolds hhost] at hcustom
      rw [Ingress.tunnelKey_of_subdomain hcustom, extractSubdomain_eq_some, hname] at hkey
      have hlength := length_eq_of_eqIgnoreAsciiCase hhost
      have hfront := splitAt_fst_prefix ':' host.toList
      rw [← hostOnly_toList, hkey] at hfront
      exact (String.toList_inj.mp (hfront.eq_of_length hlength.symm)).symm
    constructor
    · rw [Ingress.tunnelKey_of_subdomain hcustom, extractSubdomain_eq_some, hname] at hkey
      rw [← hkey]
      exact colon_notMem_hostOnly name
    · apply noLetters_of_fixed
      · have hlower := hone (String.ofList (asciiLower name.toList)) (by
          simpa using eqIgnoreAsciiCase_lower _)
        simpa using congrArg String.toList hlower
      · have hupper := hone (String.ofList (asciiUpper name.toList)) (by
          simpa using eqIgnoreAsciiCase_upper _)
        simpa using congrArg String.toList hupper

/-- Routing ignores case exactly when every live HTTP tunnel is safe from it. -/
theorem ignoresCase_iff_caseSafe (ing : Ingress) (hfolds : ing.caseMap.Folds) :
    IgnoresCase ing ↔ ∀ k, ing.HttpLive k → CaseSafe ing k := by
  constructor
  · intro hcase k hlive
    exact caseSafe_of_ignoresCase hfolds hcase hlive
  · intro hsafe
    have hsame : ∀ host host' : String,
        eqIgnoreAsciiCase host.toList host'.toList = true →
        ing.target host = ing.target host' := by
      intro host host' h
      exact sameTarget_of_caseSafe hfolds hsafe h
    refine ⟨hsame, ?_, ?_⟩
    · intro k hlive
      obtain ⟨entry, hlookup⟩ := Option.isSome_iff_exists.mp hlive.1
      refine ⟨entry, hlookup, ?_⟩
      rw [← target_hostName_of_caseSafe hlookup (hsafe k hlive)]
      apply hsame
      simpa using eqIgnoreAsciiCase_lower _
    · intro k k' hlive hlive' h
      obtain ⟨entry, hlookup⟩ := Option.isSome_iff_exists.mp hlive.1
      obtain ⟨entry', hlookup'⟩ := Option.isSome_iff_exists.mp hlive'.1
      have htarget := hsame (hostName k ing.baseDomain) (hostName k' ing.baseDomain) (by
        simp_all [eqIgnoreAsciiCase, hostName])
      rw [target_hostName_of_caseSafe hlookup (hsafe k hlive),
        target_hostName_of_caseSafe hlookup' (hsafe k' hlive')] at htarget
      cases htarget
      rfl

end Case

/-- The tunnel's own host name is made a custom domain, in another spelling. -/
def ownNameBound : List Label :=
  .connect documentationIp :: httpRegistration 0 "app" 0 ++
    [.setCustomDomain "app" "App.Relay.Test", .adminStep 0]

theorem ignoresCase_ownNameBound :
    ∃ s, FreeRun (System.step (.unlimited "relay.test")) (System.initial .disabled)
        ownNameBound s ∧ s.shared.tunnels.keys = ["app"] ∧
      IgnoresCase { Ingress.tunnelsOnly "relay.test" s.shared.tunnels with
        customDomains := s.shared.customDomains } := by
  have hexec : (exec (System.step (.unlimited "relay.test")) (System.initial .disabled)
      ownNameBound).map (fun s => (s.shared.tunnels.keys,
        s.shared.customDomains.lookup "app.relay.test")) =
          some (["app"], some ⟨"app", some 0⟩) := by
    decide +kernel
  obtain ⟨s, hrun, hfacts⟩ := exists_freeRun hexec
  obtain ⟨hkeys, hdomain⟩ := Prod.mk.inj hfacts
  refine ⟨s, hrun, hkeys, (ignoresCase_iff_caseSafe _ CaseMap.ascii_folds).mpr ?_⟩
  rintro k ⟨hk, -⟩
  have hmem : k ∈ s.shared.tunnels.keys := AList.mem_keys.mp (AList.lookup_isSome.mp hk)
  obtain rfl : k = "app" := by simpa [hkeys] using hmem
  have hlower : CaseMap.ascii.lowerString (hostOnly (hostName "app" "relay.test")) =
      "app.relay.test" := by
    decide +kernel
  rw [← hlower] at hdomain
  refine ⟨rfl, ?_⟩
  split
  · rename_i b hb
    cases hb.symm.trans hdomain
    rfl
  · rename_i hb
    cases hb.symm.trans hdomain

/-- A client registers a name with a capital letter. -/
def mixedCase : List Label :=
  .connect documentationIp :: httpRegistration 0 "App" 0

/-- Nobody gets to it by the name that a browser sends. -/
theorem not_ignoresCase_mixedCase :
    ¬ ∀ (cfg : Config) (lists : Lists) (labels : List Label) (s : System) (ing : Ingress),
      FreeRun (System.step cfg) (System.initial lists) labels s →
        ing.tunnels = s.shared.tunnels → ing.baseDomain = cfg.baseDomain →
        ing.caseMap.Folds → IgnoresCase ing := by
  intro hall
  have hexec : (exec (System.step (.unlimited "relay.test")) (System.initial .disabled)
      mixedCase).map (fun s => s.shared.tunnels.keys) = some ["App"] := by
    decide +kernel
  obtain ⟨s, hrun, hkeys⟩ := exists_freeRun hexec
  have hcase := hall _ _ _ s (.tunnelsOnly "relay.test" s.shared.tunnels) hrun rfl rfl
    CaseMap.ascii_folds
  have hmem : ∀ k, (s.shared.tunnels.lookup k).isSome ↔ k = "App" := by
    intro k
    rw [AList.lookup_isSome, AList.mem_keys, hkeys, List.mem_singleton]
  have hlive : (Ingress.tunnelsOnly "relay.test" s.shared.tunnels).HttpLive "App" :=
    ⟨(hmem "App").mpr rfl, fun port => ne_tcpKey (by decide +kernel) port⟩
  obtain ⟨entry, -, htarget⟩ := hcase.lowercase "App" hlive
  obtain ⟨-, hkey, hlookup⟩ := Ingress.target_eq_tunnel.mp htarget
  have hsub : extractSubdomain (String.ofList (asciiLower (hostName "App" "relay.test").toList))
      "relay.test" = some "app" := by
    decide +kernel
  rw [Ingress.tunnelKey_of_subdomain rfl] at hkey
  exact absurd (hkey.symm.trans hsub) (by decide)

end Seamless.Relay
