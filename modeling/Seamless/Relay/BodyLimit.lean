import Seamless.Relay.HostRouting
import Seamless.Relay.TenantIsolation

/-!
How much of a request body is passed on. `route_http` compares the first
`Content-Length` of the buffered head with the limit, once for a connection;
everything behind the head is then copied without a count.
-/

namespace Seamless.Relay

open Seamless.Common
open Seamless.Library
open Seamless.Library.ByteStream
open Seamless.Library.Text

/-- What a call has written to its target, less the preamble of a data stream. -/
def Outcome.relayed (conn : Connection) : Outcome → Option (List UInt8)
  | .proxied _ upstream => some upstream.written
  | .tunnelled _ _ data => some (data.written.drop conn.preambleLength)
  | _ => none

namespace Ingress

variable (ing : Ingress)

/-- Byte `j` of the public stream was written to a tunnel or to an upstream. -/
def passesOn (conn : Connection) (j : Nat) : Bool :=
  match (ing.routeHttp conn).1.relayed conn with
  | some bytes => conn.forwardedPosition j < bytes.length
  | none => false

/-- How many body bytes of request `i` are passed on. -/
def forwardedBody (conn : Connection) (requests : List Request) (i : Nat) : Nat :=
  match requests[i]? with
  | some r => (List.range r.body.length).countP fun k =>
      ing.passesOn conn (requestOffset requests i + r.head.length + k)
  | none => 0

end Ingress

def Dial.withFault (fault : Fault) : Dial → Dial
  | .connected _ => .connected fault
  | .unreachable => .unreachable
  | .timedOut => .timedOut

def Dial.isConnected : Dial → Bool
  | .connected _ => true
  | .unreachable => false
  | .timedOut => false

/-- The same moment, with targets that fail at another point. -/
def Ingress.withFault (ing : Ingress) (fault : Fault) : Ingress :=
  { ing with dial := fun addr => (ing.dial addr).withFault fault }

def Connection.withFault (conn : Connection) (fault : Fault) : Connection :=
  { conn with fault := fault }

/-- However much the targets accept, no request gets more of its body through than
the limit. -/
def BodyLimited (ing : Ingress) (conn : Connection) (requests : List Request) : Prop :=
  ∀ fault i, (ing.withFault fault).forwardedBody (conn.withFault fault) requests i ≤
    ing.maxBodyBytes.toNat

namespace Ingress

variable (ing : Ingress)

def accepts : Target → Bool
  | .upstream route =>
      match parseUpstreamAddr route.upstreamUrl with
      | some addr => (ing.dial addr).isConnected
      | none => false
  | .tunnel _ entry => !entry.paused && (entry.ddos.check ing.now).1
  | .noRoute => false

/-- The checks behind the buffered head. -/
def admitsHead (head : List UInt8) : Bool :=
  match parseHostHeader head with
  | some host => !isHealthCheck (parseRequestLine head) &&
      (ing.declaredTooLarge head).isNone && ing.accepts (ing.target host)
  | none => false

/-- A connection that is not answered by the relay itself and not closed. -/
def admits (conn : Connection) : Bool :=
  !ing.geoipBlocked conn.peer.ip &&
    match readHead conn.reads [] conn.stream with
    | (some (.ok true), head, _) => ing.admitsHead head
    | _ => false

end Ingress

/-- The first `Content-Length` of the head is the length of the body. -/
def Request.declaresLength (r : Request) : Bool :=
  (parseContentLength r.head).map UInt64.toNat == some r.body.length

section Relayed

variable {ing : Ingress} {conn : Connection} {head : List UInt8} {rest : ByteSource}
  {host : String}

/-- What an admitted connection is to bring to its target. -/
def forwardedStream (conn : Connection) (head : List UInt8) (rest : ByteSource) : List UInt8 :=
  injectForwardingHeaders head conn.peer.ip.toString conn.isHttps ++ rest.content

/-- No target of the connection fails. -/
def Ingress.Reliable (ing : Ingress) (conn : Connection) : Prop :=
  conn.fault = none ∧ ∀ addr fault, ing.dial addr = .connected fault → fault = none

/-- A target that accepts gets a prefix of the stream, and all of it when no write
fails; any other gets nothing. -/
structure Relays (ing : Ingress) (conn : Connection) (head : List UInt8) (rest : ByteSource)
    (accepted : Bool) (relayed : Option (List UInt8)) : Prop where
  isSome_eq : relayed.isSome = accepted
  written : ∀ bytes, relayed = some bytes → bytes <+: forwardedStream conn head rest ∧
    (ing.Reliable conn → bytes = forwardedStream conn head rest)

theorem relays_none : Relays ing conn head rest false none := by
  constructor <;> simp

theorem bridge_reliable (payload : List UInt8) (rest : ByteSource) :
    (bridge ⟨[], none⟩ payload rest).written = payload ++ rest.content := by
  simp [bridge, Sink.writeAll]

theorem Ingress.relays_upstream (route : ProxyRoute) :
    Relays ing conn head rest (ing.accepts (.upstream route))
      ((ing.routeToUpstream conn host route.upstreamUrl head rest).relayed conn) := by
  simp only [routeToUpstream, accepts]
  cases parseUpstreamAddr route.upstreamUrl with
  | none => exact relays_none
  | some addr =>
      dsimp only
      cases hdial : ing.dial addr with
      | unreachable => exact relays_none
      | timedOut => exact relays_none
      | connected fault =>
          refine ⟨rfl, ?_⟩
          rintro bytes hbytes
          obtain rfl := Option.some.inj hbytes
          constructor
          · obtain ⟨sent, hsent, hwritten⟩ := bridge_prefix ⟨[], fault⟩
              (injectForwardingHeaders head conn.peer.ip.toString conn.isHttps) rest
            rw [hwritten]
            exact hsent
          · rintro ⟨-, hreliable⟩
            obtain rfl := hreliable addr fault hdial
            exact bridge_reliable _ _

theorem Ingress.relays_tunnel (hblank : (windowPosition blankLine head).isSome) (sub : String)
    (entry : TunnelEntry) :
    Relays ing conn head rest (ing.accepts (.tunnel sub entry))
      ((ing.routeToTunnel conn sub entry head rest).1.relayed conn) := by
  simp only [routeToTunnel, accepts]
  cases entry.paused with
  | true => exact relays_none
  | false =>
      cases (entry.ddos.check ing.now).1 with
      | false => exact relays_none
      | true =>
          refine ⟨rfl, ?_⟩
          intro bytes hbytes
          obtain rfl := Option.some.inj hbytes
          rw [forwardedHead_of_complete hblank]
          constructor
          · have hwritten := bridgeTunnel_prefix conn.fault conn.peer
              (injectForwardingHeaders head conn.peer.ip.toString conn.isHttps) rest
            have hbehind := hwritten.drop conn.preambleLength
            rw [Connection.preambleLength, List.drop_left] at hbehind
            exact hbehind
          · rintro ⟨hfault, -⟩
            rw [hfault, bridgeTunnel_reliable, Connection.preambleLength, List.drop_left]
            rfl

theorem Ingress.relays_routeRequest (hblank : (windowPosition blankLine head).isSome) :
    Relays ing conn head rest (ing.admitsHead head)
      ((ing.routeRequest conn head rest).1.relayed conn) := by
  cases hhost : parseHostHeader head with
  | none =>
      simp only [routeRequest, admitsHead, hhost]
      exact relays_none
  | some host =>
      cases hhealth : isHealthCheck (parseRequestLine head) with
      | true =>
          simp only [routeRequest, admitsHead, hhost, hhealth]
          exact relays_none
      | false =>
          cases hsize : ing.declaredTooLarge head with
          | some cl =>
              simp only [routeRequest, admitsHead, hhost, hhealth, hsize]
              exact relays_none
          | none =>
              rw [routeRequest_eq hhost hhealth hsize]
              have hadmits : ing.admitsHead head = ing.accepts (ing.target host) := by
                simp [admitsHead, hhost, hhealth, hsize]
              rw [hadmits]
              cases ing.target host with
              | upstream route => exact relays_upstream route
              | tunnel sub entry => exact relays_tunnel hblank sub entry
              | noRoute => exact relays_none

theorem Ingress.relayed_isSome (ing : Ingress) (conn : Connection) :
    ((ing.routeHttp conn).1.relayed conn).isSome = ing.admits conn := by
  unfold routeHttp admits
  cases ing.geoipBlocked conn.peer.ip with
  | true => rfl
  | false =>
      simp only [Bool.false_eq_true, if_false, Bool.not_false, Bool.true_and]
      rcases hread : readHead conn.reads [] conn.stream with ⟨_ | (kind | _ | _), head, rest⟩
      · rfl
      · rfl
      · dsimp only
        split <;> rfl
      · exact (relays_routeRequest ((readHead_spec hread).2 rfl)).isSome_eq

theorem Ingress.relayed_routeHttp {bytes : List UInt8}
    (h : (ing.routeHttp conn).1.relayed conn = some bytes) :
    ∃ head rest, readHead conn.reads [] conn.stream = (some (.ok true), head, rest) ∧
      bytes <+: forwardedStream conn head rest ∧
      (ing.Reliable conn → bytes = forwardedStream conn head rest) := by
  unfold routeHttp at h
  split at h
  · simp [Outcome.relayed] at h
  · split at h
    · simp [Outcome.relayed] at h
    · simp [Outcome.relayed] at h
    · split at h <;> simp [Outcome.relayed] at h
    · rename_i head rest hread
      exact ⟨head, rest, hread,
        (relays_routeRequest ((readHead_spec hread).2 rfl)).written bytes h⟩

theorem getElem?_forwardedStream
    (h : readHead conn.reads [] conn.stream = (some (.ok true), head, rest)) (j : Nat) :
    (forwardedStream conn head rest)[conn.forwardedPosition j]? = conn.stream.content[j]? := by
  have hhead : conn.bufferedHead = head := by rw [Connection.bufferedHead, h]
  have hcontent := (readHead_spec h).1
  rw [List.nil_append] at hcontent
  rw [forwardedStream, getElem?_forwarded hhead, hcontent]

theorem Ingress.getElem?_relayed {bytes : List UInt8} {j : Nat}
    (h : (ing.routeHttp conn).1.relayed conn = some bytes) (hj : ing.passesOn conn j = true) :
    bytes[conn.forwardedPosition j]? = conn.stream.content[j]? := by
  obtain ⟨head, rest, hread, ⟨more, hmore⟩, -⟩ := relayed_routeHttp h
  rw [passesOn, h] at hj
  rw [← getElem?_forwardedStream hread, ← hmore,
    List.getElem?_append_left (by simpa using hj)]

theorem Ingress.passesOn_reliable (hadmits : ing.admits conn = true)
    (hreliable : ing.Reliable conn) {j : Nat} (hj : j < conn.stream.content.length) :
    ing.passesOn conn j = true := by
  rw [← relayed_isSome] at hadmits
  obtain ⟨bytes, hbytes⟩ := Option.isSome_iff_exists.mp hadmits
  obtain ⟨head, rest, hread, -, hall⟩ := relayed_routeHttp hbytes
  have hplace := getElem?_forwardedStream hread j
  rw [List.getElem?_eq_getElem hj, ← hall hreliable] at hplace
  obtain ⟨hlt, -⟩ := List.getElem?_eq_some_iff.mp hplace
  rw [passesOn, hbytes]
  simpa using hlt

theorem Ingress.passesOn_of_not_admits (hadmits : ing.admits conn = false) (j : Nat) :
    ing.passesOn conn j = false := by
  rw [← relayed_isSome, Option.isSome_eq_false_iff, Option.isNone_iff_eq_none] at hadmits
  rw [passesOn, hadmits]

end Relayed

section Faults

variable {ing : Ingress} {conn : Connection} (fault : Fault)

@[simp] theorem Dial.isConnected_withFault (d : Dial) :
    (d.withFault fault).isConnected = d.isConnected := by
  cases d <;> rfl

theorem Ingress.accepts_withFault (t : Target) :
    (ing.withFault fault).accepts t = ing.accepts t := by
  cases t with
  | upstream route =>
      simp only [accepts, withFault, Dial.isConnected_withFault]
  | tunnel sub entry => rfl
  | noRoute => rfl

theorem Ingress.admits_withFault :
    (ing.withFault fault).admits (conn.withFault fault) = ing.admits conn := by
  have hhead : ∀ head, (ing.withFault fault).admitsHead head = ing.admitsHead head := by
    intro head
    unfold admitsHead
    split
    · rename_i host hhost
      rw [accepts_withFault]
      rfl
    · rfl
  simp only [admits, hhead]
  rfl

theorem Ingress.reliable_withFault (ing : Ingress) (conn : Connection) :
    (ing.withFault none).Reliable (conn.withFault none) := by
  refine ⟨rfl, ?_⟩
  intro addr fault h
  simp only [withFault] at h
  cases hdial : ing.dial addr with
  | connected first =>
      rw [hdial] at h
      exact (Dial.connected.inj h).symm
  | unreachable =>
      rw [hdial] at h
      cases h
  | timedOut =>
      rw [hdial] at h
      cases h

end Faults

section Limit

variable {ing : Ingress} {conn : Connection} {requests : List Request}

theorem requestOffset_body_lt {i : Nat} {r : Request} (h : requests[i]? = some r) {k : Nat}
    (hk : k < r.body.length) :
    requestOffset requests i + r.head.length + k < (requests.flatMap Request.bytes).length := by
  obtain ⟨hlt, rfl⟩ := List.getElem?_eq_some_iff.mp h
  have hsplit : requests.flatMap Request.bytes = (requests.take i).flatMap Request.bytes ++
      (requests[i].bytes ++ (requests.drop (i + 1)).flatMap Request.bytes) := by
    conv_lhs => rw [← List.take_append_drop i requests, List.drop_eq_getElem_cons hlt]
    rw [List.flatMap_append, List.flatMap_cons]
  rw [hsplit, requestOffset]
  simp only [List.length_append, Request.bytes]
  omega

theorem Ingress.forwardedBody_le {i : Nat} {r : Request} (h : requests[i]? = some r) :
    ing.forwardedBody conn requests i ≤ r.body.length := by
  simp only [forwardedBody, h]
  exact List.countP_le_length.trans_eq List.length_range

theorem Ingress.forwardedBody_of_not_admits (hadmits : ing.admits conn = false) (i : Nat) :
    ing.forwardedBody conn requests i = 0 := by
  unfold forwardedBody
  split
  · simp [passesOn_of_not_admits hadmits]
  · rfl

theorem Ingress.forwardedBody_reliable (hadmits : ing.admits conn = true)
    (hreliable : ing.Reliable conn)
    (hstream : requests.flatMap Request.bytes <+: conn.stream.content) {i : Nat} {r : Request}
    (h : requests[i]? = some r) : ing.forwardedBody conn requests i = r.body.length := by
  simp only [forwardedBody, h]
  conv_rhs => rw [← @List.length_range r.body.length]
  apply List.countP_eq_length.mpr
  intro k hk
  apply passesOn_reliable hadmits hreliable
  exact (requestOffset_body_lt h (List.mem_range.mp hk)).trans_le hstream.length_le

theorem Ingress.checked_of_admits (h : ing.admits conn = true) :
    ∃ head rest host, readHead conn.reads [] conn.stream = (some (.ok true), head, rest) ∧
      parseHostHeader head = some host ∧ ing.declaredTooLarge head = none := by
  simp only [admits, Bool.and_eq_true] at h
  obtain ⟨-, h⟩ := h
  split at h
  · rename_i head rest hread
    unfold admitsHead at h
    split at h
    · rename_i host hhost
      simp only [Bool.and_eq_true, Option.isNone_iff_eq_none] at h
      exact ⟨head, rest, host, hread, hhost, h.1.2⟩
    · cases h
  · cases h

theorem Ingress.declaredLength_le (hpositive : 0 < ing.maxBodyBytes)
    (hadmits : ing.admits conn = true)
    (hstream : requests.flatMap Request.bytes <+: conn.stream.content) {r : Request}
    (hfirst : requests[0]? = some r) (hdeclares : r.declaresLength = true) :
    r.body.length ≤ ing.maxBodyBytes.toNat := by
  obtain ⟨head, rest, host, hread, hhost, hsize⟩ := checked_of_admits hadmits
  obtain ⟨hbuffered, hblank⟩ := readHead_spec hread
  rw [List.nil_append] at hbuffered
  have hhead : r.head <+: conn.stream.content := by
    cases requests with
    | nil => cases hfirst
    | cons first more =>
        obtain rfl := Option.some.inj hfirst
        rw [List.flatMap_cons, Request.bytes, List.append_assoc] at hstream
        exact (List.prefix_append _ _).trans hstream
  obtain ⟨tail, htail⟩ := Request.head_prefix ⟨rest.content, hbuffered⟩ hhead (hblank rfl)
  obtain ⟨front, hfront⟩ := r.ends_crlf
  rw [Request.declaresLength, beq_iff_eq, Option.map_eq_some_iff] at hdeclares
  obtain ⟨cl, hcl, hlength⟩ := hdeclares
  rw [hfront] at hcl
  rw [← htail, hfront] at hhost hsize
  rw [declaredTooLarge, if_pos hpositive, parseContentLength_append hcl hhost] at hsize
  simp only [Option.filter_some, decide_eq_true_eq] at hsize
  split at hsize
  · cases hsize
  · rename_i hle
    rw [← hlength]
    exact UInt64.le_iff_toNat_le.mp (UInt64.not_lt.mp hle)

/-- The limit holds exactly for the connections that are turned away and for those on
which every body is short enough; the check sees to that for a first request whose length is
declared. -/
theorem bodyLimited_iff (ing : Ingress) (conn : Connection) (requests : List Request)
    (hpositive : 0 < ing.maxBodyBytes)
    (hstream : requests.flatMap Request.bytes <+: conn.stream.content) :
    (BodyLimited ing conn requests ↔
      (ing.admits conn = true → ∀ r ∈ requests, r.body.length ≤ ing.maxBodyBytes.toNat)) ∧
    (ing.admits conn = true → ∀ r, requests[0]? = some r → r.declaresLength = true →
      r.body.length ≤ ing.maxBodyBytes.toNat) := by
  refine ⟨⟨?_, ?_⟩, fun hadmits r => Ingress.declaredLength_le hpositive hadmits hstream⟩
  · intro hlimited hadmits r hmem
    obtain ⟨i, hr⟩ := List.getElem?_of_mem hmem
    have hwhole : (ing.withFault none).forwardedBody (conn.withFault none) requests i =
        r.body.length := by
      apply Ingress.forwardedBody_reliable
      · rw [Ingress.admits_withFault]
        exact hadmits
      · exact Ingress.reliable_withFault ing conn
      · exact hstream
      · exact hr
    rw [← hwhole]
    exact hlimited none i
  · intro hshort fault i
    cases hadmits : ing.admits conn with
    | false =>
        rw [Ingress.forwardedBody_of_not_admits]
        · exact Nat.zero_le _
        · rw [Ingress.admits_withFault]
          exact hadmits
    | true =>
        cases hr : requests[i]? with
        | none => simp [Ingress.forwardedBody, hr]
        | some r =>
            apply (Ingress.forwardedBody_le hr).trans
            exact hshort hadmits r (List.mem_of_getElem? hr)

end Limit

def fourByteLimit : Ingress := { twoTenants with maxBodyBytes := 4 }

def postedBody (header body : String)
    (h : windowPosition blankLine (utf8 ("POST / HTTP/1.1\r\nHost: a.example.com\r\n" ++ header ++
      "\r\n\r\n")) = some ((utf8 ("POST / HTTP/1.1\r\nHost: a.example.com\r\n" ++ header ++
      "\r\n\r\n")).length - 4)) : Request :=
  ⟨_, utf8 body, h⟩

def declaredBody : Request := postedBody "Content-Length: 3" "abc" (by decide +kernel)

def chunkedBody : Request :=
  postedBody "Transfer-Encoding: chunked" "5\r\nhello\r\n0\r\n\r\n" (by decide +kernel)

def carrying (requests : List Request) : Connection :=
  { pipelined with stream := .ofList (requests.flatMap Request.bytes) }

theorem bodyLimited_declaredBody :
    0 < fourByteLimit.maxBodyBytes ∧ fourByteLimit.admits (carrying [declaredBody]) = true ∧
      BodyLimited fourByteLimit (carrying [declaredBody]) [declaredBody] := by
  have hpositive : 0 < fourByteLimit.maxBodyBytes := by decide
  refine ⟨hpositive, by decide +kernel, ?_⟩
  obtain ⟨hiff, hfirst⟩ := bodyLimited_iff fourByteLimit (carrying [declaredBody]) [declaredBody]
    hpositive (by simp [carrying])
  refine hiff.mpr fun hadmits r hr => ?_
  rw [List.mem_singleton.mp hr]
  exact hfirst hadmits declaredBody rfl (by decide +kernel)

/-- Five bytes in a chunk go through where four are allowed. -/
theorem not_bodyLimited_chunkedBody :
    ¬ ∀ (ing : Ingress) (conn : Connection) (requests : List Request),
      0 < ing.maxBodyBytes → conn.stream.content = requests.flatMap Request.bytes →
        BodyLimited ing conn requests := by
  intro hall
  have hlimited := hall fourByteLimit (carrying [chunkedBody]) [chunkedBody] (by decide)
    (Source.content_ofList _) none 0
  revert hlimited
  decide +kernel

end Seamless.Relay
