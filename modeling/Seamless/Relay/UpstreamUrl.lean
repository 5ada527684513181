import Seamless.Library.Ipv6
import Seamless.Relay.Ingress

/-!
The URL of an upstream and the address that is made of it. A URL is given by its parts;
its host may be a name, a dotted quad or an IPv6 literal in brackets. The address goes to
`route_http`, which dials it, and to `health_routes`, which probes it.
-/

namespace Seamless.Relay

open Seamless.Common
open Seamless.Library
open Seamless.Library.NetAddr
open Seamless.Library.Text

inductive RouteHealth where
  | unknown
  | up
  | down
  deriving Repr, DecidableEq

/-- One task of `health_routes`. `connects` tells what an attempt finds within 3 s. -/
def probeRoute (connects : String → Bool) (route : ProxyRoute) : RouteHealth :=
  match parseUpstreamAddr route.upstreamUrl with
  | none => .unknown
  | some addr => if connects addr then .up else .down

def healthRoutes (connects : String → Bool) (routes : List ProxyRoute) :
    KeyedTable String RouteHealth :=
  routes.foldl (fun map route => map.insert route.id (probeRoute connects route)) ∅

/-- What `route_http` does when it has dialled `addr`. -/
def Ingress.afterDial (conn : Connection) (addr : String) (head : List UInt8)
    (rest : ByteSource) : Dial → Outcome
  | .unreachable =>
      .responded (errorResponse "502 Bad Gateway"
        ("seamless: upstream '" ++ addr ++ "' unreachable\n") conn.isHttps)
  | .timedOut =>
      .responded (errorResponse "504 Gateway Timeout"
        ("seamless: upstream '" ++ addr ++ "' timed out\n") conn.isHttps)
  | .connected fault =>
      .proxied addr (bridge ⟨[], fault⟩
        (injectForwardingHeaders head conn.peer.ip.toString conn.isHttps) rest)

inductive Scheme where
  | http
  | https

namespace Scheme

def text : Scheme → List Char
  | http => "http".toList
  | https => "https".toList

def defaultPort : Scheme → List Char
  | http => "80".toList
  | https => "443".toList

end Scheme

def isNameChar (c : Char) : Bool := c.isAlphanum || c == '-' || c == '_' || c == '.'

/-- A text of the characters that DNS names are made of. -/
structure HostName where
  text : List Char
  ne : text ≠ []
  chars : ∀ c ∈ text, isNameChar c = true

/-- A text that the standard library reads as an IPv6 address. -/
structure Ipv6Literal where
  text : List Char
  ip : Ipv6Addr
  reads : parseIpv6Addr text = some ip

structure Port where
  digits : List Char
  ne : digits ≠ []
  chars : ∀ c ∈ digits, c.isDigit = true

inductive UrlHost where
  | dns (name : HostName)
  | v4 (ip : Ipv4Addr)
  | v6 (literal : Ipv6Literal)

namespace UrlHost

def text : UrlHost → List Char
  | dns name => name.text
  | v4 ip => ip.text
  | v6 literal => '[' :: literal.text ++ [']']

def isV6 : UrlHost → Bool
  | v6 _ => true
  | _ => false

end UrlHost

/-- `scheme://host[:port][/path]`. -/
structure UpstreamUrl where
  scheme : Scheme
  host : UrlHost
  port : Option Port
  path : Option (List Char)

namespace UpstreamUrl

def portText (u : UpstreamUrl) : List Char := u.port.elim [] fun port => ':' :: port.digits

def pathText (u : UpstreamUrl) : List Char := u.path.elim [] fun path => '/' :: path

def authority (u : UpstreamUrl) : List Char := u.host.text ++ u.portText

def text (u : UpstreamUrl) : String :=
  String.ofList (u.scheme.text ++ "://".toList ++ (u.authority ++ u.pathText))

/-- The host and the port, which is that of the scheme if there is none. -/
def address (u : UpstreamUrl) : String :=
  String.ofList (u.host.text ++ ':' :: u.port.elim u.scheme.defaultPort Port.digits)

/-- The address of the URL is what is made of it, what is dialled and what is probed. -/
structure Dials (u : UpstreamUrl) : Prop where
  parsed : parseUpstreamAddr u.text = some u.address
  dialled : ∀ (ing : Ingress) conn host head rest,
    ing.routeToUpstream conn host u.text head rest =
      Ingress.afterDial conn u.address head rest (ing.dial u.address)
  probed : ∀ connects front route rest, route.upstreamUrl = u.text →
    route.id ∉ rest.map ProxyRoute.id →
      (healthRoutes connects (front ++ route :: rest)).lookup route.id =
        some (if connects u.address then .up else .down)

end UpstreamUrl

section Schemes

variable {authority path : List Char}

theorem splitAt_path (hslash : '/' ∉ authority) (hpath : path = [] ∨ path.head? = some '/') :
    (splitAt '/' (authority ++ path)).1 = authority := by
  rw [splitAt_append hslash]
  rcases hpath with rfl | hhead
  · simp [splitAt]
  · obtain ⟨path, rfl⟩ := List.head?_eq_some_iff.mp hhead
    simp [splitAt]

theorem stripPrefix_scheme (scheme : Scheme) (hslash : '/' ∉ authority)
    (hcolon : authority.getLast? ≠ some ':') (hpath : path = [] ∨ path.head? = some '/') :
    stripPrefix (scheme.text ++ "://".toList) (authority ++ path) = none := by
  rw [Option.eq_none_iff_forall_ne_some]
  intro rest hrest
  have hsplit : splitAt '/' (authority ++ path) = (scheme.text ++ [':'], some ('/' :: rest)) := by
    rw [splitAt_eq_some_iff, eq_append_of_stripPrefix hrest]
    cases scheme with
    | http => exact ⟨rfl, by decide⟩
    | https => exact ⟨rfl, by decide⟩
  have hauthority := splitAt_path hslash hpath
  rw [hsplit] at hauthority
  rw [← hauthority] at hcolon
  simp at hcolon

end Schemes

section Hosts

variable {c : Char} {u : UpstreamUrl}

theorem slash_notMem_host (host : UrlHost) : '/' ∉ host.text := by
  intro hslash
  cases host with
  | dns name => exact absurd (name.chars _ hslash) (by decide)
  | v4 ip => exact absurd (Ipv4Addr.isAddressChar_of_mem hslash) (by decide)
  | v6 literal =>
      obtain ⟨-, hchars⟩ := parseIpv6Addr_text literal.reads
      simp only [UrlHost.text, List.mem_append, List.mem_cons] at hslash
      rcases hslash with (hopen | hliteral) | hclose | hclose
      · exact absurd hopen (by decide)
      · exact absurd (hchars _ hliteral) (by decide)
      · exact absurd hclose (by decide)
      · cases hclose

theorem slash_notMem_authority (u : UpstreamUrl) : '/' ∉ u.authority := by
  rw [UpstreamUrl.authority, List.mem_append, not_or]
  refine ⟨slash_notMem_host u.host, ?_⟩
  unfold UpstreamUrl.portText
  cases u.port with
  | none => simp
  | some port =>
      intro hslash
      rcases List.mem_cons.mp hslash with hcolon | hdigit
      · exact absurd hcolon (by decide)
      · exact absurd (port.chars _ hdigit) (by decide)

theorem colon_mem_host_iff (host : UrlHost) : ':' ∈ host.text ↔ host.isV6 = true := by
  cases host with
  | dns name =>
      refine ⟨fun hcolon => ?_, fun h => by cases h⟩
      exact absurd (name.chars _ hcolon) (by decide)
  | v4 ip =>
      refine ⟨fun hcolon => ?_, fun h => by cases h⟩
      exact absurd hcolon (ip.notMem_text (by decide) (by decide))
  | v6 literal =>
      obtain ⟨hcolon, -⟩ := parseIpv6Addr_text literal.reads
      refine ⟨fun _ => rfl, fun _ => ?_⟩
      simp [UrlHost.text, hcolon]

theorem colon_mem_authority_iff (u : UpstreamUrl) :
    ':' ∈ u.authority ↔ u.host.isV6 = true ∨ u.port ≠ none := by
  rw [UpstreamUrl.authority, List.mem_append, colon_mem_host_iff, UpstreamUrl.portText]
  cases u.port with
  | none => simp
  | some port => simp

theorem getLast_authority (u : UpstreamUrl) : u.authority.getLast? ≠ some ':' := by
  intro hlast
  unfold UpstreamUrl.authority UpstreamUrl.portText at hlast
  cases hport : u.port with
  | some port =>
      rw [hport, Option.elim_some, List.getLast?_append_of_ne_nil _ (List.cons_ne_nil _ _),
        List.getLast?_cons_of_ne_nil port.ne] at hlast
      exact absurd (port.chars _ (List.mem_of_getLast? hlast)) (by decide)
  | none =>
      rw [hport, Option.elim_none, List.append_nil] at hlast
      have hliteral := (colon_mem_host_iff u.host).mp (List.mem_of_getLast? hlast)
      cases hhost : u.host with
      | v6 literal =>
          rw [hhost, UrlHost.text, List.getLast?_concat] at hlast
          exact absurd (Option.some.inj hlast) (by decide)
      | dns name =>
          rw [hhost] at hliteral
          cases hliteral
      | v4 ip =>
          rw [hhost] at hliteral
          cases hliteral

theorem host_ne_nil (host : UrlHost) : host.text ≠ [] := by
  cases host with
  | dns name => exact name.ne
  | v4 ip => simp [UrlHost.text, Ipv4Addr.text]
  | v6 literal => simp [UrlHost.text]

theorem authority_ne_nil (u : UpstreamUrl) : u.authority ≠ [] :=
  List.append_ne_nil_of_left_ne_nil (host_ne_nil u.host) _

end Hosts

section Parsing

variable {u : UpstreamUrl}

theorem pathText_head (u : UpstreamUrl) : u.pathText = [] ∨ u.pathText.head? = some '/' := by
  unfold UpstreamUrl.pathText
  cases u.path with
  | none => exact .inl rfl
  | some path => exact .inr rfl

theorem toList_text (u : UpstreamUrl) :
    u.text.toList = u.scheme.text ++ "://".toList ++ (u.authority ++ u.pathText) :=
  String.toList_ofList

theorem stripped_eq (u : UpstreamUrl) :
    trimStartMatches "http://".toList (trimStartMatches "https://".toList u.text.toList) =
      u.authority ++ u.pathText := by
  have hnone : ∀ scheme : Scheme,
      stripPrefix (scheme.text ++ "://".toList) (u.authority ++ u.pathText) = none := by
    intro scheme
    exact stripPrefix_scheme scheme (slash_notMem_authority u) (getLast_authority u)
      (pathText_head u)
  have hhttp : stripPrefix "http://".toList (u.authority ++ u.pathText) = none := hnone .http
  have hhttps : stripPrefix "https://".toList (u.authority ++ u.pathText) = none := hnone .https
  rw [toList_text]
  cases u.scheme with
  | http =>
      have hother : stripPrefix "https://".toList
          (Scheme.http.text ++ "://".toList ++ (u.authority ++ u.pathText)) = none := rfl
      rw [trimStartMatches_of_none hother]
      exact trimStartMatches_once (by decide) hhttp
  | https =>
      have honce : trimStartMatches "https://".toList
          (Scheme.https.text ++ "://".toList ++ (u.authority ++ u.pathText)) =
            u.authority ++ u.pathText := trimStartMatches_once (by decide) hhttps
      rw [honce, trimStartMatches_of_none hhttp]

theorem hostPort_eq (u : UpstreamUrl) :
    (splitAt '/' (u.authority ++ u.pathText)).1 = u.authority :=
  splitAt_path (slash_notMem_authority u) (pathText_head u)

theorem parseUpstreamAddr_text (u : UpstreamUrl) :
    parseUpstreamAddr u.text = some (if u.host.isV6 = true ∨ u.port ≠ none
      then String.ofList u.authority
      else String.ofList (u.authority ++ ':' :: u.scheme.defaultPort)) := by
  have hempty : u.authority.isEmpty = false := by simpa using authority_ne_nil u
  have hcontains : containsChar ':' u.authority = true ↔ u.host.isV6 = true ∨ u.port ≠ none := by
    rw [← colon_mem_authority_iff]
    simp [containsChar]
  have hdefault : (if "https://".toList.isPrefixOf u.text.toList then "443" else "80") =
      String.ofList u.scheme.defaultPort := by
    rw [toList_text]
    cases u.scheme with
    | http => rfl
    | https => rfl
  unfold parseUpstreamAddr
  simp only [stripped_eq, hostPort_eq, hempty, Bool.false_eq_true, if_false, hcontains, hdefault]
  split
  · rfl
  · rw [List.append_cons, String.ofList_append, String.ofList_append]

theorem parseUpstreamAddr_eq_address_iff (u : UpstreamUrl) :
    parseUpstreamAddr u.text = some u.address ↔ (u.host.isV6 = true → u.port ≠ none) := by
  rw [parseUpstreamAddr_text, Option.some.injEq, UpstreamUrl.address, UpstreamUrl.authority,
    UpstreamUrl.portText]
  cases u.port with
  | some port => simp
  | none =>
      cases u.host.isV6 with
      | true =>
          rw [if_pos (.inl rfl), String.ofList_inj]
          simp
      | false => simp

theorem lookup_healthRoutes {connects : String → Bool} {front rest : List ProxyRoute}
    {route : ProxyRoute} (h : route.id ∉ rest.map ProxyRoute.id) :
    (healthRoutes connects (front ++ route :: rest)).lookup route.id =
      some (probeRoute connects route) := by
  induction rest using List.reverseRecOn with
  | nil =>
      rw [healthRoutes, List.foldl_append, List.foldl_cons, List.foldl_nil, AList.lookup_insert]
  | append_singleton rest last ih =>
      rw [List.map_append, List.mem_append, not_or] at h
      have hne : route.id ≠ last.id := by simpa using h.2
      rw [← List.cons_append, ← List.append_assoc, healthRoutes, List.foldl_append,
        List.foldl_cons, List.foldl_nil, AList.lookup_insert_ne hne]
      exact ih h.1

end Parsing

/-- The address of a URL is complete unless its host is an IPv6 literal and it has no port. -/
theorem upstreamUrl_dials_iff (u : UpstreamUrl) :
    u.Dials ↔ (u.host.isV6 = true → u.port ≠ none) := by
  rw [← parseUpstreamAddr_eq_address_iff]
  constructor
  · intro hdials
    exact hdials.parsed
  · intro hparsed
    refine ⟨hparsed, ?_, ?_⟩
    · intro ing conn host head rest
      simp only [Ingress.routeToUpstream, hparsed]
      cases ing.dial u.address with
      | connected fault => rfl
      | unreachable => rfl
      | timedOut => rfl
    · intro connects front route rest hurl hid
      rw [lookup_healthRoutes hid, probeRoute, hurl, hparsed]

/-- `http://[::1]/`. -/
def loopbackUrl : UpstreamUrl where
  scheme := .http
  host := .v6 ⟨"::1".toList, ⟨[0, 0, 0, 0, 0, 0, 0, 1], rfl⟩, by decide +kernel⟩
  port := none
  path := some []

theorem loopback_without_port :
    loopbackUrl.text = "http://[::1]/" ∧ parseUpstreamAddr "http://[::1]/" = some "[::1]" ∧
      ¬ ∀ u : UpstreamUrl, u.Dials := by
  have hparsed : parseUpstreamAddr "http://[::1]/" = some "[::1]" := by decide +kernel
  have htext : loopbackUrl.text = "http://[::1]/" := by decide +kernel
  refine ⟨htext, hparsed, ?_⟩
  intro h
  have haddress := (h loopbackUrl).parsed
  rw [htext, hparsed] at haddress
  exact absurd haddress (by decide +kernel)

end Seamless.Relay
