import Seamless.Relay.Ingress

/-!
What a connection into a tunnel adds to the byte counters. The stream to the client fails
where `Fault` says; `copy_bidirectional` is given by the bytes it moves before it ends, and
it returns their numbers only when it ends without an error.
-/

namespace Seamless.Relay

open Seamless.Common
open Seamless.Library.NetAddr
open Seamless.Library.ByteStream

/-- How `copy_bidirectional` goes: the bytes it takes each way, and whether it ends in an
error. -/
structure CopyRun where
  intoTunnel : List UInt8
  outOfTunnel : List UInt8
  failed : Bool

def copyBidirectional (run : CopyRun) : Option (Nat × Nat) :=
  if run.failed then none else some (run.intoTunnel.length, run.outOfTunnel.length)

def copyBidirectionalCounted (run : CopyRun) : Nat × Nat :=
  match copyBidirectional run with
  | some (aToB, bToA) => (aToB, bToA)
  | none => (0, 0)

/-- What is added to the counters of the tunnel and to the global ones. -/
structure Counters where
  bytesIn : Nat
  bytesOut : Nat
  metricsIn : Nat
  metricsOut : Nat

namespace Counters

def zero : Counters := ⟨0, 0, 0, 0⟩

def addIn (c : Counters) (n : Nat) : Counters :=
  { c with bytesIn := c.bytesIn + n, metricsIn := c.metricsIn + n }

def addOut (c : Counters) (n : Nat) : Counters :=
  { c with bytesOut := c.bytesOut + n, metricsOut := c.metricsOut + n }

end Counters

/-- A connection that has ended: the bytes written into the tunnel after the preamble and
those written out of it, and what was counted. -/
structure Forwarded where
  result : Except RouteError Unit
  intoTunnel : List UInt8
  outOfTunnel : List UInt8
  counters : Counters

/-- The preamble, the bytes already read, then the copy. `totals` is what the caller makes
of the result of the copy. -/
def forwardCounted (totals : CopyRun → Option (Nat × Nat)) (fault : Fault) (peer : SocketAddr)
    (payload : List UInt8) (run : CopyRun) : Forwarded :=
  match writeFrame ⟨[], fault⟩ (.newConn peer.toString) with
  | (.error e, _) => ⟨.error (.preamble e), [], [], .zero⟩
  | (.ok _, w) =>
      match w.writeAll payload with
      | (.error kind, w') =>
          ⟨.error (.io kind), w'.written.drop w.written.length, [], .zero⟩
      | (.ok _, w') =>
          ⟨.ok (), w'.written.drop w.written.length ++ run.intoTunnel, run.outOfTunnel,
            match totals run with
            | some (nIn, nOut) => ((Counters.zero.addIn payload.length).addIn nIn).addOut nOut
            | none => Counters.zero.addIn payload.length⟩

/-- The end of `route_http` for a request to a tunnel. -/
def routeHttpCounted (conn : Connection) (head : List UInt8) (run : CopyRun) : Forwarded :=
  forwardCounted (fun run => some (copyBidirectionalCounted run)) conn.fault conn.peer
    (Ingress.forwardedHead conn head) run

def forwardToTunnelCounted (fault : Fault) (alreadyRead : List UInt8) (peer : SocketAddr)
    (run : CopyRun) : Forwarded :=
  forwardCounted copyBidirectional fault peer alreadyRead run

/-- The counters say what was written. -/
def Forwarded.Exact (f : Forwarded) : Prop :=
  f.counters = ⟨f.intoTunnel.length, f.outOfTunnel.length, f.intoTunnel.length,
    f.outOfTunnel.length⟩

/-- Where writing the bytes already read fails, it fails at the first of them; where the
copy fails, it has moved nothing. -/
def FailsAtOnce (fault : Fault) (peer : SocketAddr) (payload : List UInt8) (run : CopyRun) : Prop :=
  ∀ w, writeFrame ⟨[], fault⟩ (.newConn peer.toString) = (.ok (), w) →
    (∀ room kind, w.fault = some (room, kind) → room < payload.length → room = 0) ∧
    ((∀ room kind, w.fault = some (room, kind) → payload.length ≤ room) → run.failed = true →
      run.intoTunnel = [] ∧ run.outOfTunnel = [])

section Counting

variable {totals : CopyRun → Option (Nat × Nat)} {fault : Fault} {peer : SocketAddr}
  {payload : List UInt8} {run : CopyRun} {w : ByteSink}

/-- A copy that fails counts for nothing, whichever of the two callers it has. -/
structure CountsOnSuccess (totals : CopyRun → Option (Nat × Nat)) : Prop where
  finished : ∀ run, run.failed = false →
    totals run = some (run.intoTunnel.length, run.outOfTunnel.length)
  failed : ∀ run, run.failed = true → totals run = none ∨ totals run = some (0, 0)

theorem countsOnSuccess_routeHttp :
    CountsOnSuccess fun run => some (copyBidirectionalCounted run) where
  finished := by
    intro run hrun
    simp [copyBidirectionalCounted, copyBidirectional, hrun]
  failed := by
    intro run hrun
    exact .inr (by simp [copyBidirectionalCounted, copyBidirectional, hrun])

theorem countsOnSuccess_forwardToTunnel : CountsOnSuccess copyBidirectional where
  finished := by
    intro run hrun
    simp [copyBidirectional, hrun]
  failed := by
    intro run hrun
    exact .inl (by simp [copyBidirectional, hrun])

theorem exact_iff (result : Except RouteError Unit) (into out : List UInt8) (c : Counters) :
    (⟨result, into, out, c⟩ : Forwarded).Exact ↔
      (c.bytesIn = into.length ∧ c.bytesOut = out.length) ∧
        c.metricsIn = into.length ∧ c.metricsOut = out.length := by
  obtain ⟨bytesIn, bytesOut, metricsIn, metricsOut⟩ := c
  rw [Forwarded.Exact, Counters.mk.injEq, and_assoc]

theorem exact_of_headFails {room : Nat} {kind : IoErrorKind}
    (hframe : writeFrame ⟨[], fault⟩ (.newConn peer.toString) = (.ok (), w))
    (hfault : w.fault = some (room, kind)) (hroom : room < payload.length) :
    (forwardCounted totals fault peer payload run).Exact ↔ room = 0 := by
  have hwrite : w.writeAll payload =
      (.error kind, ⟨w.written ++ payload.take room, some (0, kind)⟩) := by
    simp [Sink.writeAll, hfault, Nat.not_le.mpr hroom]
  simp only [forwardCounted, hframe, hwrite]
  rw [exact_iff, List.drop_left, List.length_take]
  constructor
  · rintro ⟨⟨hin, -⟩, -⟩
    change 0 = min room payload.length at hin
    omega
  · rintro rfl
    simp [Counters.zero]

theorem exact_of_headWritten (htotals : CountsOnSuccess totals)
    (hframe : writeFrame ⟨[], fault⟩ (.newConn peer.toString) = (.ok (), w))
    (hroom : ∀ room kind, w.fault = some (room, kind) → payload.length ≤ room) :
    (forwardCounted totals fault peer payload run).Exact ↔
      (run.failed = true → run.intoTunnel = [] ∧ run.outOfTunnel = []) := by
  obtain ⟨w', hwrite, hwritten⟩ : ∃ w', w.writeAll payload = (.ok (), w') ∧
      w'.written = w.written ++ payload := by
    unfold Sink.writeAll
    split
    · exact ⟨_, rfl, rfl⟩
    · rename_i room kind hfault
      rw [if_pos (hroom room kind hfault)]
      exact ⟨_, rfl, rfl⟩
  simp only [forwardCounted, hframe, hwrite]
  rw [exact_iff, hwritten, List.drop_left, List.length_append, ← List.length_eq_zero_iff,
    ← List.length_eq_zero_iff]
  cases hfailed : run.failed with
  | false =>
      rw [htotals.finished run hfailed]
      simp [Counters.zero, Counters.addIn, Counters.addOut]
  | true =>
      have hcounters : (match totals run with
          | some (nIn, nOut) => ((Counters.zero.addIn payload.length).addIn nIn).addOut nOut
          | none => Counters.zero.addIn payload.length) =
            ⟨payload.length, 0, payload.length, 0⟩ := by
        rcases htotals.failed run hfailed with hnone | hzero
        · rw [hnone]
          simp [Counters.zero, Counters.addIn]
        · rw [hzero]
          simp [Counters.zero, Counters.addIn, Counters.addOut]
      rw [hcounters]
      simp only [forall_const]
      omega

theorem exact_iff_failsAtOnce (htotals : CountsOnSuccess totals) :
    (forwardCounted totals fault peer payload run).Exact ↔
      FailsAtOnce fault peer payload run := by
  unfold FailsAtOnce
  rcases hframe : writeFrame ⟨[], fault⟩ (.newConn peer.toString) with ⟨e | _, w⟩
  · -- The preamble fails: nothing is written after it and nothing is counted.
    simp only [forwardCounted, hframe]
    rw [exact_iff]
    simp [Counters.zero]
  · simp only [Prod.mk.injEq, true_and, forall_eq']
    by_cases hroom : ∃ room kind, w.fault = some (room, kind) ∧ room < payload.length
    · obtain ⟨room, kind, hfault, hlt⟩ := hroom
      rw [exact_of_headFails hframe hfault hlt]
      simp only [hfault, Option.some.injEq, Prod.mk.injEq, and_imp]
      constructor
      · rintro rfl
        refine ⟨?_, ?_⟩
        · rintro room _ rfl _ _
          rfl
        · intro hfits _
          exact absurd (hfits 0 kind rfl rfl) (Nat.not_le.mpr hlt)
      · rintro ⟨hzero, -⟩
        exact hzero room kind rfl rfl hlt
    · have hfits : ∀ room kind, w.fault = some (room, kind) → payload.length ≤ room := by
        intro room kind hfault
        by_contra hlt
        exact hroom ⟨room, kind, hfault, Nat.not_le.mp hlt⟩
      rw [exact_of_headWritten htotals hframe hfits]
      constructor
      · intro hcopy
        refine ⟨?_, fun _ => hcopy⟩
        intro room kind hfault hlt
        exact absurd (hfits room kind hfault) (Nat.not_le.mpr hlt)
      · rintro ⟨-, hcopy⟩
        exact hcopy hfits

theorem result_forwardCounted (totals : CopyRun → Option (Nat × Nat)) (fault : Fault)
    (peer : SocketAddr) (payload : List UInt8) (run : CopyRun) (rest : ByteSource) :
    (forwardCounted totals fault peer payload run).result =
      (bridgeTunnel fault peer payload rest).result := by
  unfold forwardCounted bridgeTunnel
  rcases writeFrame ⟨[], fault⟩ (.newConn peer.toString) with ⟨e | _, w⟩
  · rfl
  · simp only [bridge]
    rcases w.writeAll payload with ⟨kind | _, w'⟩
    · rfl
    · rfl

end Counting

/-- On both ways into a tunnel the counters are right exactly when a connection that fails
does so before it has moved a byte of what it was moving. -/
theorem accounting_exact_iff (conn : Connection) (head : List UInt8) (fault : Fault)
    (alreadyRead : List UInt8) (peer : SocketAddr) (run : CopyRun) :
    ((routeHttpCounted conn head run).Exact ↔
      FailsAtOnce conn.fault conn.peer (Ingress.forwardedHead conn head) run) ∧
    ((forwardToTunnelCounted fault alreadyRead peer run).Exact ↔
      FailsAtOnce fault peer alreadyRead run) := by
  constructor
  · exact exact_iff_failsAtOnce countsOnSuccess_routeHttp
  · exact exact_iff_failsAtOnce countsOnSuccess_forwardToTunnel

/-- A TCP connection that is reset after one byte each way. -/
theorem reset_counts_nothing :
    ¬ ((∀ conn head run, (routeHttpCounted conn head run).Exact) ∧
      ∀ fault alreadyRead peer run,
        (forwardToTunnelCounted fault alreadyRead peer run).Exact) := by
  rintro ⟨-, h⟩
  have hexact := h none [] ⟨.v4 ⟨203, 0, 113, 9⟩, 50000, 0⟩ ⟨[1], [2], true⟩
  have hbytes := congrArg Counters.bytesIn hexact
  revert hbytes
  decide +kernel

end Seamless.Relay
