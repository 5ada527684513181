import Seamless.Relay.ControlStream
import Seamless.Relay.HostRouting
import Seamless.Relay.Visibility

/-!
The public URL of an HTTP tunnel: what the client is told, what the admin API
shows, and where a request for its host ends up.
-/

namespace Seamless.Relay

open Seamless.Common
open Seamless.Library
open Seamless.Library.ByteStream
open Seamless.Library.Text
open Seamless.Library.TransitionSystem

/-- One element of `http` in the reply of `list_seamless_tunnels`. The byte
counters are left out. -/
structure HttpView where
  subdomain : String
  url : String
  paused : Bool
  connectedAt : Int
  uptimeSecs : Int
  durationSecs : Int
  clientIp : String
  ddosEnabled : Bool
  ddosBlocked : UInt64

structure TcpView where
  key : String
  url : String
  connectedAt : Int
  durationSecs : Int
  clientIp : String

structure HttpDetails where
  subdomain : String
  ddosEnabled : Bool
  ddosBlocked : UInt64
  ddosRps : UInt32

/-- The reply of `get_seamless_tunnel`; `http` is there when `tunnel_type` is
"http". -/
structure TunnelView where
  id : String
  http : Option HttpDetails
  url : String
  connectedAt : Int
  uptimeSecs : Int
  clientIp : String
  paused : Bool

def TunnelEntry.isTcp (entry : TunnelEntry) : Bool :=
  "tcp:".toList.isPrefixOf entry.subdomain.toList

def TunnelEntry.portText (entry : TunnelEntry) : String :=
  String.ofList (trimStartMatches "tcp:".toList entry.subdomain.toList)

def listedHttp (cfg : Config) (now : Int) (entry : TunnelEntry) : HttpView where
  subdomain := entry.subdomain
  url :=
    match cfg.httpsPort with
    | some port =>
        if port = 443 then "https://" ++ entry.subdomain ++ "." ++ cfg.baseDomain
        else "https://" ++ entry.subdomain ++ "." ++ cfg.baseDomain ++ ":" ++ toString port.toNat
    | none =>
        if cfg.httpPort = 80 then "http://" ++ entry.subdomain ++ "." ++ cfg.baseDomain
        else
          "http://" ++ entry.subdomain ++ "." ++ cfg.baseDomain ++ ":" ++
            toString cfg.httpPort.toNat
  paused := entry.paused
  connectedAt := entry.connectedAt
  uptimeSecs := now - entry.connectedAt
  durationSecs := now - entry.connectedAt
  clientIp := entry.clientIp
  ddosEnabled := entry.ddos.enabled
  ddosBlocked := entry.ddos.blockedCount

def listedTcp (cfg : Config) (now : Int) (entry : TunnelEntry) : TcpView where
  key := entry.subdomain
  url := "tcp://" ++ cfg.baseDomain ++ ":" ++ entry.portText
  connectedAt := entry.connectedAt
  durationSecs := now - entry.connectedAt
  clientIp := entry.clientIp

def listSeamlessTunnels (cfg : Config) (now : Int) (tunnels : TunnelMap) :
    List HttpView × List TcpView :=
  let parts := (KeyedTable.values tunnels).partition fun entry => !entry.isTcp
  (parts.1.map (listedHttp cfg now), parts.2.map (listedTcp cfg now))

/-- `none` is the reply 404. -/
def getSeamlessTunnel (cfg : Config) (now : Int) (tunnels : TunnelMap) (id : String) :
    Option TunnelView :=
  (tunnels.lookup id).map fun entry =>
    if entry.isTcp then
      { id := entry.subdomain
        http := none
        url := "tcp://" ++ cfg.baseDomain ++ ":" ++ entry.portText
        connectedAt := entry.connectedAt
        uptimeSecs := now - entry.connectedAt
        clientIp := entry.clientIp
        paused := entry.paused }
    else
      { id := entry.subdomain
        http := some ⟨entry.subdomain, entry.ddos.enabled, entry.ddos.blockedCount,
          entry.ddos.rps⟩
        url :=
          match cfg.httpsPort with
          | some port =>
              if port = 443 then "https://" ++ entry.subdomain ++ "." ++ cfg.baseDomain
              else
                "https://" ++ entry.subdomain ++ "." ++ cfg.baseDomain ++ ":" ++
                  toString port.toNat
          | none =>
              if cfg.httpPort = 80 then "http://" ++ entry.subdomain ++ "." ++ cfg.baseDomain
              else
                "http://" ++ entry.subdomain ++ "." ++ cfg.baseDomain ++ ":" ++
                  toString cfg.httpPort.toNat
        connectedAt := entry.connectedAt
        uptimeSecs := now - entry.connectedAt
        clientIp := entry.clientIp
        paused := entry.paused }

/-- The names that `serve_http` registers: requested and accepted, or generated. -/
inductive HttpName (cfg : Config) (sub : String) : Prop
  | accepted (lists : Lists) (h : checkRequested cfg lists sub = .ok ())
  | generated (h : isRandomSubdomain cfg.subdomainLength sub = true)

section Names

variable {cfg : Config} {s s' : System} {i : MuxId} {h h' : Handler} {sh sh' : Shared}
  {input : Input} {label : Label}

theorem HttpName.chars {sub : String} (h : HttpName cfg sub) :
    ∀ c ∈ sub.toList, c.isAlphanum ∨ c = '-' := by
  cases h with
  | accepted lists h => exact validateSubdomain_chars (checkRequested_valid h)
  | generated h =>
      intro c hc
      simp only [isRandomSubdomain, Bool.and_eq_true, List.all_eq_true] at h
      have halphabet : randomChars.all Char.isAlphanum = true := by decide +kernel
      exact .inl (List.all_eq_true.mp halphabet c (by simpa using h.2 c hc))

theorem HttpName.not_tcp {sub : String} (h : HttpName cfg sub) :
    "tcp:".toList.isPrefixOf sub.toList = false := by
  by_contra hprefix
  rw [Bool.not_eq_false, List.isPrefixOf_iff_prefix] at hprefix
  have hcolon : ':' ∈ sub.toList := hprefix.subset (by decide)
  rcases h.chars ':' hcolon with hbad | hbad <;> revert hbad <;> decide

theorem afterNaming_pending {subdomain : Option String} {random : String} {unixNow : Int}
    {now : Nat} {pc : Pc} {entry : TunnelEntry}
    (hnaming : afterNaming cfg i sh h subdomain random unixNow now = some pc)
    (hpending : pc.pending = some entry) : HttpName cfg entry.subdomain := by
  unfold afterNaming at hnaming
  split at hnaming
  · split at hnaming
    · cases hnaming
      cases hpending
    · rename_i hcheck
      cases hnaming
      cases hpending
      exact .accepted sh.lists hcheck
  · split at hnaming
    · rename_i hrandom
      cases hnaming
      cases hpending
      exact .generated hrandom
    · cases hnaming

theorem Handler.step_named {entry : TunnelEntry}
    (hstep : h.step cfg i sh input = some (h', sh')) (hpending : h'.pc.pending = some entry) :
    ∃ sub random unixNow now, input = .named random unixNow now ∧ h.pc = .serve (.http sub) ∧
      afterNaming cfg i sh h sub random unixNow now = some h'.pc ∧ sh' = sh := by
  cases Handler.step_cases hstep with
  | @named _ sub _ _ _ hpc _ =>
      cases input with
      | named random unixNow now =>
          simp only [Handler.step, hpc, Option.map_eq_some_iff, Prod.mk.injEq] at hstep
          obtain ⟨pc, hnaming, hgoto, -⟩ := hstep
          exact ⟨sub, random, unixNow, now, rfl, hpc, by rw [hnaming, ← hgoto]; rfl, rfl⟩
      | _ => simp [Handler.step, hpc] at hstep
  | advance _ _ hearly =>
      rw [Handler.goto_pc, hearly.pending] at hpending
      cases hpending
  | search _ hsearching =>
      rw [Handler.goto_pc, hsearching.pending] at hpending
      cases hpending
  | announced => simp at hpending
  | pinged hpc => simp [hpc, Pc.pending] at hpending
  | drained hpc => simp [hpc, Pc.pending] at hpending
  | left => simp at hpending
  | pingFailed => simp at hpending
  | _ => cases hpending

theorem Handler.step_pending {entry : TunnelEntry}
    (hstep : h.step cfg i sh input = some (h', sh')) (hpending : h'.pc.pending = some entry) :
    HttpName cfg entry.subdomain := by
  obtain ⟨_, _, _, _, _, _, hnaming, _⟩ := Handler.step_named hstep hpending
  exact afterNaming_pending hnaming hpending

/-- The names that a call works with are ones that `serve_http` registers. -/
structure Handler.Named (cfg : Config) (h : Handler) : Prop where
  pending : ∀ entry, h.pc.pending = some entry → HttpName cfg entry.subdomain
  endpoint : ∀ sub, h.pc.endpoint = some (.http sub) → HttpName cfg sub

theorem Handler.Named.step (hs : h.Named cfg)
    (hstep : h.step cfg i sh input = some (h', sh')) : h'.Named cfg where
  pending := fun entry hpending => Handler.step_pending hstep hpending
  endpoint := by
    intro sub hendpoint
    cases (Handler.step_cases hstep).registry with
    | unchanged _ _ hsame => exact hs.endpoint sub (hsame ▸ hendpoint)
    | @insertedHttp entry hpc hpc' =>
        rw [hpc'] at hendpoint
        cases hendpoint
        exact hs.pending entry (by rw [hpc]; rfl)
    | bound _ _ hpc' | insertedPort _ hpc' | insertedTcp _ hpc' | removedPort _ hpc'
    | removedTunnel _ hpc' =>
        rw [hpc'] at hendpoint
        cases hendpoint

def NamesSound (cfg : Config) (s : System) : Prop := s.EachHandler fun _ h => h.Named cfg

theorem NamesSound.step (hs : NamesSound cfg s) (hstep : s.step cfg label = some s') :
    NamesSound cfg s' := by
  intro j g hg
  cases System.handler_origin hstep hg with
  | own _ hget hown => exact (hs j _ hget).step hown
  | same _ hget => exact hs j g hget
  | fresh _ hg =>
      rw [hg]
      exact ⟨by rintro entry ⟨⟩, by rintro sub ⟨⟩⟩

/-- Every entry stands under its own name, which is an HTTP name or the key of a
TCP tunnel. -/
def KeysSound (cfg : Config) (s : System) : Prop :=
  ∀ k e, s.shared.tunnels.lookup k = some e →
    e.subdomain = k ∧ (HttpName cfg k ∨ ∃ port, k = tcpKey port)

theorem HandlerStep.lookup_cases (hstep : HandlerStep cfg i sh h input h' sh') {k : String}
    {e : TunnelEntry} (hk : sh'.tunnels.lookup k = some e) :
    sh.tunnels.lookup k = some e ∨ (h.pc.pending = some e ∧ e.subdomain = k) ∨
      ∃ port, k = tcpKey port ∧ e.subdomain = k := by
  cases hstep with
  | @inserted _ entry hpc hfree =>
      rcases lookup_insertTunnel hk with ⟨rfl, rfl⟩ | ⟨-, hold⟩
      · exact .inr (.inl ⟨by rw [hpc]; rfl, rfl⟩)
      · exact .inl hold
  | @entryInserted _ port _ _ hpc =>
      rcases lookup_insertTunnel hk with ⟨rfl, rfl⟩ | ⟨-, hold⟩
      · exact .inr (.inr ⟨port, rfl, rfl⟩)
      · exact .inl hold
  | cleaned => exact .inl (lookup_removeTunnel hk).2
  | announceFailed => exact .inl (by simpa using hk)
  | _ => exact .inl hk

theorem KeysSound.step (hs : KeysSound cfg s) (hnames : NamesSound cfg s)
    (hstep : s.step cfg label = some s') : KeysSound cfg s' := by
  intro k e hk
  cases System.step_cases hstep with
  | connected client => exact hs k e hk
  | handled hget hhandler =>
      rcases hhandler.lookup_cases hk with hold | ⟨hpc, hname⟩ | ⟨port, hkey, hname⟩
      · exact hs k e hold
      · exact ⟨hname, .inl (hname ▸ (hnames _ _ hget).pending e hpc)⟩
      · exact ⟨hname, .inr ⟨port, hkey⟩⟩
  | evicted _ hevict => exact hs k e (hevict.lookup hk)
  | quiet hquiet => exact hs k e (hquiet.tunnels ▸ hk)

theorem names_reached {lists : Lists} {labels : List Label}
    (hrun : FreeRun (System.step cfg) (System.initial lists) labels s) :
    NamesSound cfg s ∧ KeysSound cfg s := by
  refine hrun.invariant (I := fun s => NamesSound cfg s ∧ KeysSound cfg s) ⟨?_, ?_⟩ ?_
  · intro i h hi
    simp [System.initial] at hi
  · intro k e hk
    simp [System.initial, Shared.initial] at hk
  · rintro t a u ⟨hnames, hkeys⟩ _ hstep
    exact ⟨hnames.step hstep, hkeys.step hnames hstep⟩

theorem Pc.endpoint_of_announcedEndpoint {pc : Pc} {endpoint : Endpoint}
    (h : pc.announcedEndpoint = some endpoint) : pc.endpoint = some endpoint := by
  unfold Pc.announcedEndpoint at h
  split at h <;> first | exact h | cases h

/-- A call that serves a tunnel has told its client the URL of that tunnel, and
nothing but keepalives since. -/
def Handler.ToldUrl (cfg : Config) (h : Handler) : Prop :=
  ∀ endpoint, h.pc.announcedEndpoint = some endpoint →
    ∃ pings, Wrote (.registered (endpoint.url cfg) :: List.replicate pings .ping) h.control

theorem HandlerStep.toldUrl (hstep : HandlerStep cfg i sh h input h' sh') (hspoken : h.Spoken)
    (hs : h.ToldUrl cfg) : h'.ToldUrl cfg := by
  intro endpoint hendpoint
  cases hstep with
  | advance _ _ hearly =>
      rw [Handler.goto_pc, hearly.announcedEndpoint] at hendpoint
      cases hendpoint
  | search _ hsearching =>
      rw [Handler.goto_pc, hsearching.announcedEndpoint] at hendpoint
      cases hendpoint
  | @announced fault e hpc hwrite =>
      obtain rfl : e = endpoint := by
        cases e <;> cases hendpoint <;> rfl
      have hnothing : Wrote [] (⟨h.control, fault⟩ : ByteSink).written := by
        rw [hspoken.mute (by simp [hpc, Pc.Mute])]
        exact .nil
      exact ⟨0, hnothing.snoc hwrite⟩
  | entryInserted hpc =>
      cases hendpoint
      exact hs _ (by rw [hpc]; rfl)
  | @pinged fault e hpc hwrite =>
      obtain ⟨pings, hwrote⟩ := hs endpoint hendpoint
      have hmore := Wrote.snoc (w := ⟨h.control, fault⟩) hwrote hwrite
      rw [List.cons_append, ← List.replicate_succ'] at hmore
      exact ⟨pings + 1, hmore⟩
  | drained => exact hs endpoint hendpoint
  | left =>
      rw [Handler.goto_pc, Endpoint.announcedEndpoint_exit] at hendpoint
      cases hendpoint
  | pingFailed =>
      rw [Handler.goto_pc, Endpoint.announcedEndpoint_exit] at hendpoint
      cases hendpoint
  | _ => cases hendpoint

theorem toldUrl_reached {guard : System → Label → Prop} {lists : Lists} {labels : List Label}
    (hrun : Reached cfg guard lists labels s) : s.EachHandler fun _ h => h.ToldUrl cfg := by
  have hboth : s.EachHandler fun _ h => h.Spoken ∧ h.ToldUrl cfg := by
    refine System.eachHandler_reached hrun ?_ ?_
    · intro i client
      exact ⟨spoken_accepted client, by rintro endpoint ⟨⟩⟩
    · rintro i sh h input h' sh' hstep ⟨hspoken, htold⟩
      exact ⟨hstep.spoken hspoken, hstep.toldUrl hspoken htold⟩
  exact fun i h hi => (hboth i h hi).2

end Names

/-- The client of an HTTP tunnel and both views of the admin API have the same URL
for it. -/
structure UrlsAgree (cfg : Config) (s : System) : Prop where
  announced : ∀ (i : MuxId) (h : Handler) sub, s.handlers[i]? = some h →
    h.pc.announcedEndpoint = some (.http sub) → HttpName cfg sub ∧
      ∃ pings, Wrote (.registered (publicUrl cfg sub) :: List.replicate pings .ping) h.control
  listed : ∀ now sub, HttpName cfg sub → (s.shared.tunnels.lookup sub).isSome →
    (∃ view ∈ (listSeamlessTunnels cfg now s.shared.tunnels).1, view.subdomain = sub) ∧
    ∀ view ∈ (listSeamlessTunnels cfg now s.shared.tunnels).1, view.subdomain = sub →
      view.url = publicUrl cfg sub
  shown : ∀ now sub, HttpName cfg sub → (s.shared.tunnels.lookup sub).isSome →
    ∃ view, getSeamlessTunnel cfg now s.shared.tunnels sub = some view ∧ view.id = sub ∧
      view.http.isSome ∧ view.url = publicUrl cfg sub

section Views

variable {cfg : Config} {s : System} {now : Int} {sub : String} {entry : TunnelEntry}

theorem listedHttp_url (cfg : Config) (now : Int) (entry : TunnelEntry) :
    (listedHttp cfg now entry).url = publicUrl cfg entry.subdomain := rfl

theorem mem_listed_http {tunnels : TunnelMap} {view : HttpView} :
    view ∈ (listSeamlessTunnels cfg now tunnels).1 ↔
      ∃ k entry, tunnels.lookup k = some entry ∧ entry.isTcp = false ∧
        view = listedHttp cfg now entry := by
  simp only [listSeamlessTunnels, List.partition_eq_filter_filter, List.mem_map, List.mem_filter,
    Bool.not_eq_true', KeyedTable.mem_values]
  constructor
  · rintro ⟨entry, ⟨⟨k, hk⟩, htcp⟩, rfl⟩
    exact ⟨k, entry, hk, htcp, rfl⟩
  · rintro ⟨k, entry, hk, htcp, rfl⟩
    exact ⟨entry, ⟨⟨k, hk⟩, htcp⟩, rfl⟩

theorem getSeamlessTunnel_http {tunnels : TunnelMap} (hk : tunnels.lookup sub = some entry)
    (htcp : entry.isTcp = false) :
    ∃ view, getSeamlessTunnel cfg now tunnels sub = some view ∧ view.id = entry.subdomain ∧
      view.http.isSome ∧ view.url = publicUrl cfg entry.subdomain := by
  simp only [getSeamlessTunnel, hk, htcp, Option.map_some, Bool.false_eq_true, if_false]
  exact ⟨_, rfl, rfl, rfl, rfl⟩

theorem urlsAgree_reached {lists : Lists} {labels : List Label}
    (hrun : FreeRun (System.step cfg) (System.initial lists) labels s) : UrlsAgree cfg s := by
  obtain ⟨hnames, hkeys⟩ := names_reached hrun
  have hnotTcp : ∀ sub entry, HttpName cfg sub → s.shared.tunnels.lookup sub = some entry →
      entry.isTcp = false := by
    intro sub entry hname hk
    rw [TunnelEntry.isTcp, (hkeys sub entry hk).1]
    exact hname.not_tcp
  refine ⟨?_, ?_, ?_⟩
  · intro i h sub hget hendpoint
    have hname := (hnames i h hget).endpoint sub (Pc.endpoint_of_announcedEndpoint hendpoint)
    exact ⟨hname, toldUrl_reached hrun i h hget (.http sub) hendpoint⟩
  · intro now sub hname hsome
    obtain ⟨entry, hk⟩ := Option.isSome_iff_exists.mp hsome
    constructor
    · have hlisted : listedHttp cfg now entry ∈ (listSeamlessTunnels cfg now s.shared.tunnels).1 :=
        mem_listed_http.mpr ⟨sub, entry, hk, hnotTcp _ _ hname hk, rfl⟩
      exact ⟨_, hlisted, (hkeys sub entry hk).1⟩
    · intro view hview hsub
      obtain ⟨k, entry', hk', -, rfl⟩ := mem_listed_http.mp hview
      rw [listedHttp_url, ← hsub]
      rfl
  · intro now sub hname hsome
    obtain ⟨entry, hk⟩ := Option.isSome_iff_exists.mp hsome
    obtain ⟨view, hview, hid, hhttp, hurl⟩ :=
      getSeamlessTunnel_http hk (hnotTcp _ _ hname hk)
    rw [(hkeys sub entry hk).1] at hid hurl
    exact ⟨view, hview, hid, hhttp, hurl⟩

end Views

/-- The header section of a request: a request line, which begins with a method,
and header lines of any content. -/
structure RequestHead where
  method : List Char
  target : List Char
  headers : List (List Char)
  colon_notMem : ':' ∉ method
  oneLine : ∀ line ∈ (method ++ ' ' :: target) :: headers, ¬ ['\r', '\n'] <:+: line

namespace RequestHead

def lines (head : RequestHead) : List (List Char) :=
  (head.method ++ ' ' :: head.target) :: head.headers

def text (head : RequestHead) : List Char :=
  head.lines.flatMap (· ++ ['\r', '\n']) ++ ['\r', '\n']

/-- The value of a header line whose name is `name`, up to case. -/
def fieldValue (name : String) (line : List Char) : Option (List Char) :=
  match splitAt ':' line with
  | (key, some value) => if eqIgnoreAsciiCase key name.toList then some value else none
  | (_, none) => none

/-- There is exactly one `Host` header, and up to blanks its value is `host`. -/
def NamesHost (head : RequestHead) (host : String) : Prop :=
  ∃ front back, (∀ c ∈ front, isWhitespace c = true) ∧ (∀ c ∈ back, isWhitespace c = true) ∧
    head.headers.filterMap (fieldValue "host") = [front ++ host.toList ++ back]

end RequestHead

/-- The authority of a tunnel's URL, with or without a port. -/
inductive IsAuthority (sub base : String) : String → Prop
  | bare : IsAuthority sub base (hostName sub base)
  | withPort (port : UInt16) :
      IsAuthority sub base (hostName sub base ++ ":" ++ toString port.toNat)

/-- The checks behind which `route_http` looks at the host: the relay's own health
check, and the declared size of the body. -/
def Ingress.PassesChecks (ing : Ingress) (buffer : List UInt8) : Prop :=
  isHealthCheck (parseRequestLine buffer) = false ∧ ing.declaredTooLarge buffer = none

/-- Requests for the host of `sub` that are `allowed` go to the entry under `sub`.
`more` is text that came in with the head. -/
def Ingress.RoutesBack (ing : Ingress) (allowed : List UInt8 → Prop) (sub : String) : Prop :=
  ∀ (conn : Connection) (head : RequestHead) (more : List Char) (buffer : List UInt8)
    (rest : ByteSource) (host : String),
    buffer = utf8 (String.ofList (head.text ++ more)) →
    ing.geoipBlocked conn.peer.ip = false →
    readHead conn.reads [] conn.stream = (some (.ok true), buffer, rest) →
    IsAuthority sub ing.baseDomain host → head.NamesHost host → allowed buffer →
    ing.matchedRoute host = none → ing.customDomains.lookup (ing.lowerHost host) = none →
    ing.routeHttp conn = ing.routeTo conn host buffer rest
      (match ing.tunnels.lookup sub with
      | some entry => .tunnel sub entry
      | none => .noRoute)

section Routing

variable {cfg : Config} {ing : Ingress} {sub base host : String} {head : RequestHead}

theorem RequestHead.fieldValue_requestLine (head : RequestHead) :
    fieldValue "host" (head.method ++ ' ' :: head.target) = none := by
  have hblank : ' ' ∈ (splitAt ':' (head.method ++ ' ' :: head.target)).1 := by
    rw [splitAt_append head.colon_notMem]
    simp [splitAt]
  unfold fieldValue
  split
  · rename_i key value hsplit
    rw [hsplit] at hblank
    rw [if_neg]
    intro hhost
    have hlower : ' ' ∈ "host".toList.map Char.toLower := by
      rw [← beq_iff_eq.mp hhost]
      exact List.mem_map.mpr ⟨' ', hblank, rfl⟩
    revert hlower
    decide
  · rfl

theorem headerValue_text {value : List Char} (more : List Char)
    (h : head.headers.filterMap (RequestHead.fieldValue "host") = [value]) :
    headerValue "host" (head.text ++ more) = some value := by
  have hlines : splitCrlf (head.text ++ more) =
      head.lines ++ splitCrlf ('\r' :: '\n' :: more) := by
    rw [RequestHead.text, List.append_assoc]
    exact splitCrlf_lines head.oneLine _
  have hfirst : head.lines.findSome? (RequestHead.fieldValue "host") = some value := by
    rw [RequestHead.lines, List.findSome?_cons, head.fieldValue_requestLine,
      ← List.head?_filterMap, h]
    rfl
  change (splitCrlf (head.text ++ more)).findSome? (RequestHead.fieldValue "host") = some value
  rw [hlines, List.findSome?_append, hfirst]
  rfl

theorem parseHostHeader_head (more : List Char) (hhost : head.NamesHost host)
    (hblanks : ∀ c ∈ host.toList, isWhitespace c = false) :
    parseHostHeader (utf8 (String.ofList (head.text ++ more))) = some host := by
  obtain ⟨front, back, hfront, hback, hvalue⟩ := hhost
  apply parseHostHeader_eq_some.mpr
  refine ⟨_, front ++ host.toList ++ back, fromUtf8_utf8 _, ?_, ?_⟩
  · rw [String.toList_ofList]
    exact headerValue_text more hvalue
  · rw [trim_between hfront hblanks hback, String.ofList_toList]

/-- Letters, digits, '-' and '.'. -/
def IsHostChar (c : Char) : Prop := c.isAlphanum ∨ c = '-' ∨ c = '.'

instance (c : Char) : Decidable (IsHostChar c) := inferInstanceAs (Decidable (_ ∨ _))

theorem isWhitespace_of_isHostChar {c : Char} (h : IsHostChar c) : isWhitespace c = false := by
  rcases h with h | rfl | rfl
  · have hcode : 48 ≤ c.toNat ∧ c.toNat ≤ 122 := by
      simp only [Char.isAlphanum, Char.isAlpha, Char.isUpper, Char.isLower, Char.isDigit,
        Bool.or_eq_true, Bool.and_eq_true, decide_eq_true_eq, UInt32.le_iff_toNat_le,
        ge_iff_le, UInt32.reduceToNat, Char.reduceVal, Char.toNat_val] at h
      omega
    simp only [isWhitespace, Bool.or_eq_false_iff, Bool.and_eq_false_iff, decide_eq_false_iff_not,
      beq_eq_false_iff_ne]
    omega
  · rfl
  · rfl

theorem hostChars (hbase : ∀ c ∈ base.toList, IsHostChar c) (hsub : HttpName cfg sub) :
    ∀ c ∈ (hostName sub base).toList, IsHostChar c := by
  intro c hc
  simp only [hostName, String.toList_append, List.mem_append] at hc
  rcases hc with (hc | hc) | hc
  · exact (hsub.chars c hc).imp_right .inl
  · exact .inr (.inr (by simpa using hc))
  · exact hbase c hc

theorem colon_notMem_of_hostChars {s : List Char} (h : ∀ c ∈ s, IsHostChar c) : ':' ∉ s := by
  intro hmem
  rcases h ':' hmem with hbad | hbad | hbad <;> revert hbad <;> decide

theorem IsAuthority.not_whitespace (h : IsAuthority sub base host)
    (hname : ∀ c ∈ (hostName sub base).toList, IsHostChar c) :
    ∀ c ∈ host.toList, isWhitespace c = false := by
  intro c hc
  cases h with
  | bare => exact isWhitespace_of_isHostChar (hname c hc)
  | withPort port =>
      simp only [String.toList_append, List.mem_append] at hc
      rcases hc with (hc | hc) | hc
      · exact isWhitespace_of_isHostChar (hname c hc)
      · obtain rfl : c = ':' := by simpa using hc
        rfl
      · have hdigits : c ∈ Nat.toDigits 10 port.toNat := by simpa using hc
        have hdigit := Nat.isDigit_of_mem_toDigits (by decide) (by decide) hdigits
        exact isWhitespace_of_isHostChar (.inl (by simp [Char.isAlphanum, hdigit]))

theorem IsAuthority.hostOnly (h : IsAuthority sub base host)
    (hname : ':' ∉ (hostName sub base).toList) : hostOnly host = hostName sub base := by
  cases h with
  | bare => exact hostOnly_of_notMem hname
  | withPort port =>
      have hport : Relay.hostOnly (":" ++ toString port.toNat) = "" := by
        simp [Relay.hostOnly, splitAt]
      rw [String.append_assoc, hostOnly_append hname, hport, String.append_empty]

theorem routesBack_of_httpName (hbase : ∀ c ∈ ing.baseDomain.toList, IsHostChar c)
    (hsub : HttpName cfg sub) : ing.RoutesBack ing.PassesChecks sub := by
  intro conn head more buffer rest host hbuffer hgeo hread hauthority hnames hchecks hroute hcustom
  have hchars := hostChars hbase hsub
  have hhost : parseHostHeader buffer = some host := by
    rw [hbuffer]
    exact parseHostHeader_head more hnames (hauthority.not_whitespace hchars)
  have hkey : ing.tunnelKey host = some sub := by
    rw [Ingress.tunnelKey_of_subdomain hcustom, extractSubdomain_eq_some]
    exact hauthority.hostOnly (colon_notMem_of_hostChars hchars)
  have htarget : ing.target host = match ing.tunnels.lookup sub with
      | some entry => .tunnel sub entry
      | none => .noRoute := by
    rw [Ingress.target, hroute, hkey]
    cases hlookup : ing.tunnels.lookup sub <;> simp [hlookup]
  have hrequest : ing.routeRequest conn buffer rest =
      ing.routeTo conn host buffer rest (ing.target host) :=
    Ingress.routeRequest_eq hhost hchecks.1 hchecks.2
  rw [← htarget, ← hrequest, Ingress.routeHttp, hgeo, hread]
  rfl

theorem publicUrl_authority (cfg : Config) (sub : String) :
    ∃ scheme authority, publicUrl cfg sub = scheme ++ "://" ++ authority ∧
      IsAuthority sub cfg.baseDomain authority := by
  unfold publicUrl
  split
  · rename_i port _
    split
    · exact ⟨"https", _, by simp [← String.toList_inj, hostName], .bare⟩
    · exact ⟨"https", _, by simp [← String.toList_inj, hostName], .withPort port⟩
  · split
    · exact ⟨"http", _, by simp [← String.toList_inj, hostName], .bare⟩
    · exact ⟨"http", _, by simp [← String.toList_inj, hostName], .withPort cfg.httpPort⟩

end Routing

/-- In every run: all views agree on the URL of an HTTP tunnel, requests for its host
go back to its entry, and no host goes to a TCP tunnel by a name under the base
domain. -/
theorem publicUrl_routes_back {cfg : Config} {lists : Lists} {labels : List Label} {s : System}
    (hrun : FreeRun (System.step cfg) (System.initial lists) labels s)
    (hbase : ∀ c ∈ cfg.baseDomain.toList, IsHostChar c) :
    UrlsAgree cfg s ∧
    (∀ sub, HttpName cfg sub →
      (∃ scheme authority, publicUrl cfg sub = scheme ++ "://" ++ authority ∧
        IsAuthority sub cfg.baseDomain authority) ∧
      ∀ ing : Ingress, ing.baseDomain = cfg.baseDomain → ing.RoutesBack ing.PassesChecks sub) ∧
    ∀ host port, extractSubdomain host cfg.baseDomain ≠ some (tcpKey port) := by
  refine ⟨urlsAgree_reached hrun, ?_, fun host port => extractSubdomain_ne_tcpKey host _ port⟩
  intro sub hsub
  refine ⟨publicUrl_authority cfg sub, ?_⟩
  intro ing hing
  exact routesBack_of_httpName (hing ▸ hbase) hsub

theorem relayTest_hostChars : ∀ c ∈ "relay.test".toList, IsHostChar c := by
  have hall : "relay.test".toList.all (fun c => decide (IsHostChar c)) = true := by decide +kernel
  intro c hc
  exact of_decide_eq_true (List.all_eq_true.mp hall c hc)

def announcedApp : List Label :=
  .connect documentationIp :: httpRegistration 0 "app" 0 ++ [.handler 0 (.wrote none)]

theorem publicUrl_routes_back_app :
    ∃ s, FreeRun (System.step (.unlimited "relay.test")) (System.initial .disabled)
        announcedApp s ∧ s.shared.holder "app" = some 0 ∧
      UrlsAgree (.unlimited "relay.test") s ∧
      (HttpName (.unlimited "relay.test") "app" ∧ ∀ ing : Ingress, ing.baseDomain = "relay.test" →
        ing.RoutesBack ing.PassesChecks "app") ∧
      ∀ host port, extractSubdomain host "relay.test" ≠ some (tcpKey port) := by
  have hexec : (exec (System.step (.unlimited "relay.test")) (System.initial .disabled)
      announcedApp).map (fun s => s.shared.holder "app") = some (some 0) := by
    decide +kernel
  obtain ⟨s, hrun, hholder⟩ := exists_freeRun hexec
  have hname : HttpName (.unlimited "relay.test") "app" := .accepted .disabled (by decide +kernel)
  obtain ⟨hviews, hroutes, htcp⟩ := publicUrl_routes_back hrun relayTest_hostChars
  exact ⟨s, hrun, hholder, hviews, ⟨hname, (hroutes "app" hname).2⟩, htcp⟩

/-- A health probe that is addressed to a tunnel. -/
def healthProbe : RequestHead where
  method := "GET".toList
  target := "/health HTTP/1.1".toList
  headers := ["Host: app.relay.test".toList]
  colon_notMem := by decide +kernel
  oneLine := by decide +kernel

def oneTunnelIngress : Ingress :=
  .tunnelsOnly "relay.test" (AList.insert "app" (.new 0 "app" "192.0.2.1" 0 0) ∅)

def probing : Connection where
  peer := ⟨.v4 ⟨198, 51, 100, 7⟩, 50000, 0⟩
  isHttps := false
  stream := .ofList (utf8 (String.ofList (healthProbe.text ++ [])))
  reads := 1
  fault := none

/-- The relay answers it itself. -/
theorem not_routesBack_healthProbe :
    ¬ ∀ (cfg : Config) (sub : String) (ing : Ingress),
      (∀ c ∈ cfg.baseDomain.toList, IsHostChar c) → HttpName cfg sub →
      ing.baseDomain = cfg.baseDomain → ing.RoutesBack (fun _ => True) sub := by
  intro hall
  have hname : HttpName (.unlimited "relay.test") "app" := .accepted .disabled (by decide +kernel)
  have hroutes := hall (.unlimited "relay.test") "app" oneTunnelIngress relayTest_hostChars
    hname rfl
  have hnames : healthProbe.NamesHost (hostName "app" "relay.test") :=
    ⟨[' '], [], by simp [isWhitespace], by simp, by decide +kernel⟩
  have hread : readHead probing.reads [] probing.stream =
      (some (.ok true), utf8 (String.ofList (healthProbe.text ++ [])),
        (readHead probing.reads [] probing.stream).2.2) :=
    Prod.ext (by decide +kernel) (Prod.ext (by decide +kernel) rfl)
  have hsame := hroutes probing healthProbe [] _ _ _ rfl rfl hread .bare hnames trivial rfl rfl
  have hanswer : (oneTunnelIngress.routeHttp probing).1 =
      .responded (oneTunnelIngress.healthResponse false) := by
    decide +kernel
  rw [hsame] at hanswer
  revert hanswer
  decide +kernel

end Seamless.Relay
