import Seamless.EndToEnd.Transparency
import Seamless.Relay.ControlStream

/-!
The grammar of the streams of a session: the control stream in both directions,
and the data streams the relay opens.
-/

namespace Seamless.EndToEnd

open Seamless.Common
open Seamless.Client
open Seamless.Library
open Seamless.Library.NetAddr
open Seamless.Library.ByteStream
open Seamless.Library.TransitionSystem
open Seamless.Relay

/-- One `NewConn` frame and behind it `payload`, cut off anywhere. -/
structure OpensWithNewConn (peer : SocketAddr) (payload written : List UInt8) : Prop where
  fits : FrameFits (.newConn peer.toString)
  written_prefix : written <+: frameBytes (.newConn peer.toString) ++ payload

theorem opensWithNewConn_bridgeTunnel (fault : Fault) (peer : SocketAddr)
    (payload : List UInt8) (rest : ByteSource) :
    OpensWithNewConn peer (payload ++ rest.content)
      (bridgeTunnel fault peer payload rest).written :=
  ⟨fits_preamble peer, bridgeTunnel_prefix fault peer payload rest⟩

/-- In every run of the relay the frames on each control stream are a prefix of
`[Error]` or `[Registered, Ping, …]`; every data stream opens with one `NewConn`
and carries nothing but public bytes and the injected lines behind it; and in every
run of the client the frames on its control stream are a prefix of
`[Register, Ping, …]`. -/
theorem streamGrammar :
    (∀ (cfg : Config) (lists : Lists) (labels : List Label) (s : System) (i : MuxId)
      (h : Handler),
      FreeRun (System.step cfg) (System.initial lists) labels s →
      s.handlers[i]? = some h →
      Writes RelayFrames h.control) ∧
    (∀ (ing : Ingress) (conn : Connection) (key : String) (mux : MuxId) (data : Bridged),
      (ing.routeHttp conn).1 = .tunnelled key mux data →
      ∃ head rest : List UInt8, head ++ rest = conn.stream.content ∧
        OpensWithNewConn conn.peer
          (injectForwardingHeaders head conn.peer.ip.toString conn.isHttps ++ rest)
          data.written) ∧
    (∀ conn : Connection,
      OpensWithNewConn conn.peer conn.stream.content (serveTcpConnection conn).written) ∧
    (∀ (token : Option String) (kind : TunnelKind) (inputs : List SessionInput)
      (s : Session),
      FreeRun Session.step (.opened token kind) inputs s →
      Writes ClientFrames s.control) := by
  refine ⟨?_, ?_, ?_, ?_⟩
  · intro cfg lists labels s i h hrun hget
    exact control_writes hrun hget
  · intro ing conn key mux data houtcome
    obtain ⟨head, rest, host, hreaches⟩ := Ingress.routeHttp_tunnelled houtcome
    have hbuffered := (readHead_spec hreaches.complete).1
    refine ⟨head, rest.content, by simpa using hbuffered, ?_⟩
    rw [hreaches.data_eq]
    exact opensWithNewConn_bridgeTunnel _ _ _ _
  · intro conn
    exact opensWithNewConn_bridgeTunnel conn.fault conn.peer [] conn.stream
  · intro token kind inputs s hrun
    exact session_writes hrun

def brokenKeepalive : List Fault := [none, some (3, .other 104)]

/-- A TCP tunnel whose control stream breaks in the middle of a keepalive. -/
def interruptedTunnel : List Label :=
  .connect documentationIp :: tcpRegistration 0 4000 ++
    brokenKeepalive.map fun fault => .handler 0 (.ticked fault)

def interruptedSession : List SessionInput :=
  [.wrote none, .replied (.ofList (frameBytes (.registered "tcp://example.com:4000")))] ++
    brokenKeepalive.map .ticked

theorem streamGrammar_interrupted :
    (∃ s h, FreeRun (System.step (.unlimited "example.com")) (System.initial .disabled)
        interruptedTunnel s ∧ s.handlers[0]? = some h ∧
      h.control = frameBytes (.registered "tcp://example.com:4000") ++ frameBytes .ping ++
        (frameBytes .ping).take 3 ∧
      Writes RelayFrames h.control) ∧
    (∃ data, (demoIngress.routeHttp piecewiseRequest).1 = .tunnelled "demo" 0 data ∧
      ∃ head rest : List UInt8, head ++ rest = piecewiseRequest.stream.content ∧
        OpensWithNewConn piecewiseRequest.peer
          (injectForwardingHeaders head piecewiseRequest.peer.ip.toString false ++ rest)
          data.written) ∧
    OpensWithNewConn piecewiseRequest.peer piecewiseRequest.stream.content
      (serveTcpConnection piecewiseRequest).written ∧
    (∃ s, FreeRun Session.step (.opened none (.tcp 4000)) interruptedSession s ∧
      s.control = frameBytes (.register 1 none (.tcp 4000)) ++ frameBytes .ping ++
        (frameBytes .ping).take 3 ∧
      Writes ClientFrames s.control) := by
  refine ⟨?_, ?_, streamGrammar.2.2.1 piecewiseRequest, ?_⟩
  · have hexec : (exec (System.step (.unlimited "example.com")) (System.initial .disabled)
        interruptedTunnel).map (fun s => (s.handlers[0]?).map Handler.control) =
          some (some (frameBytes (.registered "tcp://example.com:4000") ++ frameBytes .ping ++
            (frameBytes .ping).take 3)) := by
      decide +kernel
    obtain ⟨s, hrun, hcontrol⟩ := exists_freeRun hexec
    obtain ⟨h, hget, hbytes⟩ := Option.map_eq_some_iff.mp hcontrol
    exact ⟨s, h, hrun, hget, hbytes, streamGrammar.1 _ _ _ _ _ _ hrun hget⟩
  · obtain ⟨data, hdata⟩ := demo_tunnelled
    exact ⟨data, hdata, streamGrammar.2.1 demoIngress piecewiseRequest "demo" 0 data hdata⟩
  · have hexec : (exec Session.step (.opened none (.tcp 4000)) interruptedSession).map
        Session.control = some (frameBytes (.register 1 none (.tcp 4000)) ++
          frameBytes .ping ++ (frameBytes .ping).take 3) := by
      decide +kernel
    obtain ⟨s, hrun, hbytes⟩ := exists_freeRun hexec
    exact ⟨s, hrun, hbytes, streamGrammar.2.2.2 _ _ _ _ hrun⟩

end Seamless.EndToEnd
