import Seamless.Client.Session
import Seamless.Relay.Ingress

/-!
Relay and client together: what the service behind a tunnel receives of a public
connection.
-/

namespace Seamless.EndToEnd

open Seamless.Common
open Seamless.Client
open Seamless.Library
open Seamless.Library.NetAddr
open Seamless.Library.ByteStream
open Seamless.Relay

theorem handleIncoming_bridgeTunnel {peer : SocketAddr} {payload : List UInt8}
    {rest apex : ByteSource}
    (hcontent : apex.content = (bridgeTunnel none peer payload rest).written) :
    handleIncoming apex (some none) = (.ok (), payload ++ rest.content) := by
  rw [bridgeTunnel_reliable] at hcontent
  exact handleIncoming_newConn (fits_preamble peer) hcontent

/-- However the public stream and the data stream are cut into reads, the local
service receives the buffered head with the forwarding lines injected and then
the rest of the public stream; behind a TCP tunnel it receives the public
stream. -/
theorem byteTransparency :
    (∀ (ing : Ingress) (conn : Connection) (key : String) (mux : MuxId) (data : Bridged)
      (apex : ByteSource),
      conn.fault = none →
      (ing.routeHttp conn).1 = .tunnelled key mux data →
      apex.content = data.written →
      ∃ head rest, readHead conn.reads [] conn.stream = (some (.ok true), head, rest) ∧
        head ++ rest.content = conn.stream.content ∧
        handleIncoming apex (some none) =
          (.ok (), injectForwardingHeaders head conn.peer.ip.toString conn.isHttps ++
            rest.content)) ∧
    (∀ (conn : Connection) (apex : ByteSource),
      conn.fault = none →
      apex.content = (serveTcpConnection conn).written →
      handleIncoming apex (some none) = (.ok (), conn.stream.content)) := by
  constructor
  · intro ing conn key mux data apex hfault houtcome hcontent
    obtain ⟨head, rest, host, hreaches⟩ := Ingress.routeHttp_tunnelled houtcome
    have hbuffered := (readHead_spec hreaches.complete).1
    refine ⟨head, rest, hreaches.complete, by simpa using hbuffered, ?_⟩
    rw [hreaches.data_eq, hfault] at hcontent
    exact handleIncoming_bridgeTunnel hcontent
  · intro conn apex hfault hcontent
    rw [serveTcpConnection, forwardToTunnel, hfault] at hcontent
    simpa using handleIncoming_bridgeTunnel hcontent

def demoIngress : Ingress :=
  .tunnelsOnly "example.com" (AList.insert "demo" (.new 0 "demo" "192.0.2.1" 0 0) ∅)

/-- A request that arrives in three pieces, cut inside its blank line and inside
its body. -/
def piecewiseRequest : Connection where
  peer := ⟨.v4 ⟨198, 51, 100, 7⟩, 50000, 0⟩
  isHttps := false
  stream :=
    { chunks := [utf8 "POST / HTTP/1.1\r\nHost: demo.example.com\r\n\r", utf8 "\nab", utf8 "cd"]
      ending := .eof
      nonempty := by decide }
  reads := 10
  fault := none

theorem demo_tunnelled : ∃ data,
    (demoIngress.routeHttp piecewiseRequest).1 = .tunnelled "demo" 0 data :=
  ⟨bridgeTunnel none piecewiseRequest.peer (utf8 ("POST / HTTP/1.1\r\n" ++
    forwardingLines "198.51.100.7" false ++ "Host: demo.example.com\r\n\r\nab"))
    (.ofList (utf8 "cd")), by decide +kernel⟩

theorem byteTransparency_piecewise :
    (∃ data, (demoIngress.routeHttp piecewiseRequest).1 = .tunnelled "demo" 0 data ∧
      handleIncoming (.ofList data.written) (some none) =
        (.ok (), utf8 ("POST / HTTP/1.1\r\nX-Forwarded-For: 198.51.100.7\r\n" ++
          "X-Real-IP: 198.51.100.7\r\nX-Forwarded-Proto: http\r\n" ++
          "Host: demo.example.com\r\n\r\nabcd"))) ∧
    handleIncoming (.ofList (serveTcpConnection piecewiseRequest).written) (some none) =
      (.ok (), utf8 "POST / HTTP/1.1\r\nHost: demo.example.com\r\n\r\nabcd") := by
  have htcp := byteTransparency.2 piecewiseRequest _ rfl (Source.content_ofList _)
  refine ⟨?_, htcp.trans (by decide +kernel)⟩
  obtain ⟨data, hdata⟩ := demo_tunnelled
  obtain ⟨head, rest, hread, -, hlocal⟩ :=
    byteTransparency.1 demoIngress piecewiseRequest "demo" 0 data (.ofList data.written) rfl
      hdata (Source.content_ofList _)
  have hhead : (readHead piecewiseRequest.reads [] piecewiseRequest.stream).2.1 = head ∧
      (readHead piecewiseRequest.reads [] piecewiseRequest.stream).2.2.content = rest.content := by
    rw [hread]
    exact ⟨rfl, rfl⟩
  refine ⟨data, hdata, hlocal.trans ?_⟩
  rw [← hhead.1, ← hhead.2]
  decide +kernel

end Seamless.EndToEnd
