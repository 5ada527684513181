import Seamless.Relay.Ingress

/-!
Which tunnel receives which byte of a public connection that carries several
requests. The ingress routes connections, not requests: the first `Host` header
decides for everything that follows.
-/

namespace Seamless.Relay

open Seamless.Common
open Seamless.Library
open Seamless.Library.NetAddr
open Seamless.Library.ByteStream
open Seamless.Library.Text

/-- A request on the wire: the header block, which ends at its first blank line,
and the body. -/
structure Request where
  head : List UInt8
  body : List UInt8
  blankLine_last : windowPosition blankLine head = some (head.length - 4)

def Request.bytes (r : Request) : List UInt8 := r.head ++ r.body

def Request.selects (ing : Ingress) (r : Request) : Option String :=
  (parseHostHeader r.head).bind ing.tunnelKey

def requestOffset (requests : List Request) (i : Nat) : Nat :=
  ((requests.take i).flatMap Request.bytes).length

def Connection.bufferedHead (conn : Connection) : List UInt8 :=
  (readHead conn.reads [] conn.stream).2.1

def Connection.preambleLength (conn : Connection) : Nat :=
  (frameBytes (.newConn conn.peer.toString)).length

def Connection.injectedLength (conn : Connection) : Nat :=
  (utf8 (forwardingLines conn.peer.ip.toString conn.isHttps)).length

/-- The place of byte `j` of the public stream in the stream that is forwarded. -/
def Connection.forwardedPosition (conn : Connection) (j : Nat) : Nat :=
  match requestLineEnd conn.bufferedHead with
  | some position => if j < position then j else j + conn.injectedLength
  | none => j

/-- The tunnel whose data stream accepted byte `j` of the public stream. -/
def Ingress.deliveredTo (ing : Ingress) (conn : Connection) (j : Nat) : Option String :=
  match (ing.routeHttp conn).1 with
  | .tunnelled key _ data =>
      if conn.preambleLength + conn.forwardedPosition j < data.written.length then some key
      else none
  | _ => none

theorem Ingress.deliveredTo_eq_some {ing : Ingress} {conn : Connection} {j : Nat}
    {key : String} (h : ing.deliveredTo conn j = some key) :
    ∃ mux data, (ing.routeHttp conn).1 = .tunnelled key mux data ∧
      conn.preambleLength + conn.forwardedPosition j < data.written.length := by
  unfold deliveredTo at h
  split at h
  · rename_i key' mux data houtcome
    split at h
    · rename_i hposition
      obtain rfl := Option.some.inj h
      exact ⟨mux, data, houtcome, hposition⟩
    · cases h
  · cases h

theorem requestLineEnd_le {head : List UInt8} {position : Nat}
    (h : requestLineEnd head = some position) : position ≤ head.length := by
  obtain ⟨i, hi, rfl⟩ := Option.map_eq_some_iff.mp h
  exact (windowPosition_length hi).resolve_right (by simp [crlf])

theorem getElem?_forwarded {conn : Connection} {head rest : List UInt8}
    (hhead : conn.bufferedHead = head) (j : Nat) :
    (injectForwardingHeaders head conn.peer.ip.toString conn.isHttps ++
      rest)[conn.forwardedPosition j]? = (head ++ rest)[j]? := by
  unfold injectForwardingHeaders Connection.forwardedPosition
  rw [hhead]
  cases hline : requestLineEnd head with
  | none => rfl
  | some position =>
      have hle := requestLineEnd_le hline
      have hfirst : (head.take position).length = position := by simp [hle]
      dsimp only
      split
      · rename_i hbefore
        rw [List.append_assoc, List.append_assoc, List.getElem?_append_left (by omega),
          List.getElem?_take_of_lt hbefore, List.getElem?_append_left (by omega)]
      · rename_i hbehind
        have hshift : j + conn.injectedLength -
            (head.take position ++
              utf8 (forwardingLines conn.peer.ip.toString conn.isHttps)).length =
              j - position := by
          simp only [List.length_append, hfirst, Connection.injectedLength]
          omega
        have hsplit : head ++ rest = head.take position ++ (head.drop position ++ rest) := by
          rw [← List.append_assoc, List.take_append_drop]
        have hright : (head.take position ++ (head.drop position ++ rest))[j]? =
            (head.drop position ++ rest)[j - position]? := by
          rw [List.getElem?_append_right (by omega), hfirst]
        rw [List.append_assoc, List.getElem?_append_right, hshift, hsplit, hright]
        simp only [List.length_append, hfirst, Connection.injectedLength]
        omega

theorem ReachesTunnel.getElem?_written {ing : Ingress} {conn : Connection} {key : String}
    {mux : MuxId} {data : Bridged} {head : List UInt8} {rest : ByteSource} {host : String}
    (h : ReachesTunnel ing conn key mux data head rest host) {j : Nat}
    (hj : conn.preambleLength + conn.forwardedPosition j < data.written.length) :
    data.written[conn.preambleLength + conn.forwardedPosition j]? =
      conn.stream.content[j]? := by
  have hhead : conn.bufferedHead = head := by rw [Connection.bufferedHead, h.complete]
  have hcontent := (readHead_spec h.complete).1
  rw [List.nil_append] at hcontent
  have hprefix : data.written <+: frameBytes (.newConn conn.peer.toString) ++
      (injectForwardingHeaders head conn.peer.ip.toString conn.isHttps ++ rest.content) :=
    h.data_eq ▸ bridgeTunnel_prefix _ _ _ _
  obtain ⟨more, hmore⟩ := hprefix
  rw [← List.getElem?_append_left hj, hmore, Connection.preambleLength,
    List.getElem?_append_right (Nat.le_add_right _ _), Nat.add_sub_cancel_left, ← hcontent]
  exact getElem?_forwarded hhead j

theorem blankLine_ne_nil : blankLine ≠ [] := by simp [blankLine]

theorem Request.head_prefix {r : Request} {buffered content : List UInt8}
    (hbuffered : buffered <+: content) (hhead : r.head <+: content)
    (hblank : (windowPosition blankLine buffered).isSome) : r.head <+: buffered := by
  obtain ⟨more, rfl⟩ := hbuffered
  obtain ⟨more', hmore'⟩ := hhead
  obtain ⟨position, hposition⟩ := Option.isSome_iff_exists.mp hblank
  have hsame : position = r.head.length - 4 := by
    have hfirst := windowPosition_append blankLine_ne_nil hposition more
    rw [← hmore', windowPosition_append blankLine_ne_nil r.blankLine_last more'] at hfirst
    exact (Option.some.inj hfirst).symm
  have hlength := (windowPosition_length hposition).resolve_right blankLine_ne_nil
  have hfour : blankLine.length = 4 := rfl
  refine List.prefix_of_prefix_length_le ⟨more', hmore'⟩ (List.prefix_append _ _) ?_
  omega

theorem Request.ends_crlf (r : Request) : ∃ front, r.head = front ++ crlf := by
  have hlast := windowPosition_spec r.blankLine_last
  have hlength := (windowPosition_length r.blankLine_last).resolve_right blankLine_ne_nil
  have hfour : blankLine.length = 4 := rfl
  have htail : r.head.drop (r.head.length - 4) = blankLine := by
    refine (hlast.eq_of_length ?_).symm
    rw [List.length_drop, hfour]
    omega
  refine ⟨r.head.take (r.head.length - 4) ++ crlf, ?_⟩
  conv_lhs => rw [← List.take_append_drop (r.head.length - 4) r.head, htail]
  simp [blankLine, crlf]

/-- Per-request isolation: each byte goes to the tunnel of the request it belongs
to, or nowhere. -/
def PerRequestIsolation (ing : Ingress) (conn : Connection) (requests : List Request) : Prop :=
  ∀ i r j key, requests[i]? = some r → requestOffset requests i ≤ j →
    j < requestOffset requests (i + 1) → ing.deliveredTo conn j = some key →
    r.selects ing = some key

/-- On a connection that carries the requests `first :: more`, every byte that
reaches a tunnel reaches the one that is selected by the first `Host` line of the
buffered head, which is the `Host` header of the first request when it has one;
and it arrives there unchanged. -/
theorem connectionIsolation (ing : Ingress) (conn : Connection) (first : Request)
    (more : List Request)
    (hcontent : conn.stream.content = (first :: more).flatMap Request.bytes)
    (j : Nat) (key : String) (hdelivered : ing.deliveredTo conn j = some key) :
    ∃ host mux data, parseHostHeader conn.bufferedHead = some host ∧
      ing.tunnelKey host = some key ∧
      (∀ own, parseHostHeader first.head = some own → host = own) ∧
      (ing.routeHttp conn).1 = .tunnelled key mux data ∧
      (∃ entry, ing.tunnels.lookup key = some entry ∧ entry.mux = mux) ∧
      data.written[conn.preambleLength + conn.forwardedPosition j]? =
        conn.stream.content[j]? := by
  obtain ⟨mux, data, houtcome, hposition⟩ := Ingress.deliveredTo_eq_some hdelivered
  obtain ⟨head, rest, host, hreaches⟩ := Ingress.routeHttp_tunnelled houtcome
  have hhead : conn.bufferedHead = head := by
    rw [Connection.bufferedHead, hreaches.complete]
  obtain ⟨hbuffered, hblank⟩ := readHead_spec hreaches.complete
  rw [List.nil_append] at hbuffered
  obtain ⟨entry, hlookup, hmux, -⟩ := hreaches.live
  refine ⟨host, mux, data, hhead ▸ hreaches.host_eq, hreaches.key_eq, ?_, houtcome,
    ⟨entry, hlookup, hmux⟩, hreaches.getElem?_written hposition⟩
  intro own hown
  have hfirst : first.head <+: conn.stream.content := by
    rw [hcontent, List.flatMap_cons, Request.bytes, List.append_assoc]
    exact List.prefix_append _ _
  obtain ⟨tail, htail⟩ :=
    Request.head_prefix ⟨rest.content, hbuffered⟩ hfirst (hblank rfl)
  obtain ⟨front, hfront⟩ := first.ends_crlf
  have hhost := hreaches.host_eq
  rw [← htail, hfront] at hhost
  exact parseHostHeader_append (hfront ▸ hown) hhost

def twoTenants : Ingress :=
  .tunnelsOnly "example.com"
    (AList.insert "a" (.new 0 "a" "192.0.2.1" 0 0)
      (AList.insert "b" (.new 1 "b" "192.0.2.2" 0 0) ∅))

def pipelinedRequests : List Request :=
  [⟨utf8 "GET / HTTP/1.1\r\nHost: a.example.com\r\n\r\n", [], by decide +kernel⟩,
    ⟨utf8 "GET / HTTP/1.1\r\nHost: b.example.com\r\n\r\n", [], by decide +kernel⟩]

def pipelined : Connection where
  peer := ⟨.v4 ⟨198, 51, 100, 7⟩, 50000, 0⟩
  isHttps := false
  stream := .ofList (pipelinedRequests.flatMap Request.bytes)
  reads := 10
  fault := none

theorem connectionIsolation_pipelined :
    pipelined.stream.content = pipelinedRequests.flatMap Request.bytes ∧
    twoTenants.deliveredTo pipelined 40 = some "a" ∧
    ∃ host mux data, parseHostHeader pipelined.bufferedHead = some host ∧
      twoTenants.tunnelKey host = some "a" ∧
      (∀ first, pipelinedRequests.head? = some first →
        ∀ own, parseHostHeader first.head = some own → host = own) ∧
      (twoTenants.routeHttp pipelined).1 = .tunnelled "a" mux data ∧
      (∃ entry, twoTenants.tunnels.lookup "a" = some entry ∧ entry.mux = mux) ∧
      data.written[pipelined.preambleLength + pipelined.forwardedPosition 40]? =
        pipelined.stream.content[40]? := by
  have hcontent : pipelined.stream.content = pipelinedRequests.flatMap Request.bytes :=
    Source.content_ofList _
  have hdelivered : twoTenants.deliveredTo pipelined 40 = some "a" := by decide +kernel
  obtain ⟨host, mux, data, hhost, hkey, hown, hrest⟩ :=
    connectionIsolation twoTenants pipelined _ _ hcontent 40 "a" hdelivered
  refine ⟨hcontent, hdelivered, host, mux, data, hhost, hkey, ?_, hrest⟩
  intro first hfirst
  cases hfirst
  exact hown

/-- The second request, for `b`, goes to the client of `a`. -/
theorem not_perRequestIsolation_pipelined :
    ¬ ∀ (ing : Ingress) (conn : Connection) (requests : List Request),
      ing.routes = [] → ing.customDomains = ∅ →
      conn.stream.content = requests.flatMap Request.bytes →
      PerRequestIsolation ing conn requests := by
  intro hall
  have hisolated := hall twoTenants pipelined pipelinedRequests rfl rfl (Source.content_ofList _)
  have hselected := hisolated 1 _ 40 "a" rfl (by decide +kernel) (by decide +kernel)
    (by decide +kernel)
  revert hselected
  decide +kernel

end Seamless.Relay
