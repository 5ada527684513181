import Seamless.Library.Tally
import Seamless.Relay.Service

/-!
Passthrough connections over whole runs: no peer that an accept loop takes is lost or served
twice, none is served unscreened, and the gauge and the audit log tell what became of it.
-/

namespace Seamless.Relay

open Seamless.Library.NetAddr
open Seamless.Library.Tally
open Seamless.Library.TransitionSystem

/-- The audit entries with which an accept loop drops a connection. -/
def Notice.isPassthroughRefusal : Notice → Bool
  | .audit (.passthroughDenied _ _) | .audit (.passthroughGeoBlocked _ _ _)
  | .audit (.passthroughRateLimited _ _) => true
  | _ => false

def Happening.isAccepted : Happening → Bool
  | .accepted _ _ => true
  | _ => false

def PassthroughListener.isLimiting (l : PassthroughListener) : Bool :=
  l.loop matches .limiting _

def PassthroughConnection.isForwarding (conn : PassthroughConnection) : Bool :=
  conn.phase == .forwarding

/-- What has been reported of a connection: nothing before its task runs, then its opening,
and one closing when the task is through. -/
inductive PassthroughConnection.Narrated (conn : PassthroughConnection) : List Notice → Prop
  | spawned (hphase : conn.phase = .spawned) : Narrated conn []
  | forwarding (hphase : conn.phase = .forwarding) : Narrated conn [.audit conn.connectEvent]
  | closed {bytesIn bytesOut : UInt64} (hphase : conn.phase = .closed) :
      Narrated conn [.audit conn.connectEvent, .audit (conn.disconnectEvent bytesIn bytesOut)]

/-- A peer passes the checks that stand before the rate limiter. -/
def Screens (cfg : ServiceConfig) (pcfg : TcpPassthroughConfig) (peer : SocketAddr) (s : Service)
    (a : Happening) : Prop :=
  ∃ n, a = .accepted n peer ∧ s.listeners[n]? = some ⟨pcfg, .accepting⟩ ∧
    s.system.shared.lists.denies peer.ip = false ∧ cfg.geoip.isBlocked peer.ip = false

theorem countP_report_refusal (c : Config) (sh : Shared) (h : Handler) (l : CallLocals)
    (m : Moment) (input : Input) :
    (h.report c sh l m input).countP Notice.isPassthroughRefusal = 0 := by
  cases input with
  | received read =>
      simp only [Handler.report]
      split
      · unfold reportRegister
        repeat' split
        all_goals rfl
      · rfl
  | proceed =>
      simp only [Handler.report]
      repeat' split
      any_goals rfl
      simp only [reportClosed, closingEvent]
      split <;> rfl
  | _ =>
      simp only [Handler.report]
      repeat' split
      all_goals rfl

theorem TcpPassthroughConfig.screen_cases (pcfg : TcpPassthroughConfig) (lists : Lists)
    (geoip : GeoipFilter) (peer : SocketAddr) :
    (∃ entry, pcfg.screen lists geoip peer = (.accepting, [.audit entry]) ∧
        (Notice.audit entry).isPassthroughRefusal = true ∧
        (lists.denies peer.ip = true ∨ geoip.isBlocked peer.ip = true)) ∨
      pcfg.screen lists geoip peer = (.limiting peer, []) ∧ lists.denies peer.ip = false ∧
        geoip.isBlocked peer.ip = false := by
  rw [TcpPassthroughConfig.screen_eq]
  split
  · rename_i hdenied
    exact .inl ⟨_, rfl, rfl, .inl hdenied⟩
  · rename_i hallowed
    split
    · rename_i hblocked
      exact .inl ⟨_, rfl, rfl, .inr hblocked⟩
    · rename_i hopen
      exact .inr ⟨rfl, by simpa using hallowed, by simpa using hopen⟩

namespace Service

/-- The peers that accept loops have dropped. -/
def dropped (s : Service) : Nat := s.journal.countP fun r => r.2.isPassthroughRefusal

def waiting (s : Service) : Nat := s.listeners.countP PassthroughListener.isLimiting

theorem dropped_report (s : Service) (who : Reporter) (notices : List Notice) :
    (s.report who notices).dropped = s.dropped + notices.countP Notice.isPassthroughRefusal := by
  simp [dropped, report, List.countP_append, List.countP_map, Function.comp_def]

theorem dropped_congr {s s' : Service} (h : s'.journal = s.journal) : s'.dropped = s.dropped := by
  rw [dropped, h, dropped]

/-- What is known of the connections and of those that wait to become one. -/
structure Forwards (cfg : ServiceConfig) (lists : Lists) (cfgs : List TcpPassthroughConfig)
    (happenings : List Happening) (s : Service) : Prop where
  gauge : s.active = UInt64.ofNat (s.connections.countP PassthroughConnection.isForwarding)
  accounted : happenings.countP Happening.isAccepted =
    s.dropped + s.waiting + s.connections.length
  narrated : ∀ (c : Nat) (conn : PassthroughConnection), s.connections[c]? = some conn →
    conn.Narrated (s.reportsOf (.connection c))
  unborn : ∀ c, s.connections.length ≤ c → s.reportsOf (.connection c) = []
  screening : ∀ (n : Nat) (pcfg : TcpPassthroughConfig) (peer : SocketAddr),
    s.listeners[n]? = some ⟨pcfg, .limiting peer⟩ →
      Occurred (Service.step cfg) (Screens cfg pcfg peer) (.initial lists cfgs) happenings
  screened : ∀ (c : Nat) (conn : PassthroughConnection), s.connections[c]? = some conn →
    Occurred (Service.step cfg) (Screens cfg conn.cfg conn.peer) (.initial lists cfgs) happenings

section Steps

variable {cfg : ServiceConfig} {lists : Lists} {cfgs : List TcpPassthroughConfig}
  {happenings : List Happening} {s s' : Service} {a : Happening}

theorem Forwards.frame (hs : s.Forwards cfg lists cfgs happenings)
    (haccepted : a.isAccepted = false) (hactive : s'.active = s.active)
    (hconnections : s'.connections = s.connections) (hlisteners : s'.listeners = s.listeners)
    (hdropped : s'.dropped = s.dropped)
    (hreports : ∀ c, s'.reportsOf (.connection c) = s.reportsOf (.connection c)) :
    s'.Forwards cfg lists cfgs (happenings ++ [a]) where
  gauge := by rw [hactive, hconnections, hs.gauge]
  accounted := by
    have hwaiting : s'.waiting = s.waiting := by rw [waiting, hlisteners, waiting]
    rw [countP_concat, haccepted, hs.accounted, hdropped, hwaiting, hconnections]
    rfl
  narrated := by
    intro c conn hget
    rw [hconnections] at hget
    rw [hreports]
    exact hs.narrated c conn hget
  unborn := by
    intro c hc
    rw [hconnections] at hc
    rw [hreports]
    exact hs.unborn c hc
  screening := by
    intro n pcfg peer hget
    rw [hlisteners] at hget
    exact (hs.screening n pcfg peer hget).snoc a
  screened := by
    intro c conn hget
    rw [hconnections] at hget
    exact (hs.screened c conn hget).snoc a

theorem Forwards.screened_step (hs : s.Forwards cfg lists cfgs happenings)
    (hrun : FreeRun (Service.step cfg) (.initial lists cfgs) happenings s) {n : Nat}
    {peer : SocketAddr} {pcfg : TcpPassthroughConfig}
    (hget : s.listeners[n]? = some ⟨pcfg, .accepting⟩) :
    ((s.setLoop n pcfg (pcfg.screen s.system.shared.lists cfg.geoip peer).1).report (.listener n)
      (pcfg.screen s.system.shared.lists cfg.geoip peer).2).Forwards cfg lists cfgs
        (happenings ++ [.accepted n peer]) := by
  have hlt : n < s.listeners.length := (List.getElem?_eq_some_iff.mp hget).1
  have hscreen := pcfg.screen_cases s.system.shared.lists cfg.geoip peer
  generalize pcfg.screen s.system.shared.lists cfg.geoip peer = outcome at hscreen ⊢
  obtain ⟨loop, notices⟩ := outcome
  refine ⟨hs.gauge, ?_, ?_, ?_, ?_, ?_⟩
  · have hset := countP_set_add (p := PassthroughListener.isLimiting) hget ⟨pcfg, loop⟩
    have hwaiting : ((s.setLoop n pcfg loop).report (.listener n) notices).waiting =
        (s.listeners.set n ⟨pcfg, loop⟩).countP PassthroughListener.isLimiting := rfl
    rw [countP_concat, dropped_report, hwaiting, hs.accounted, dropped_congr (s := s) rfl]
    change s.dropped + s.waiting + s.connections.length + 1 = s.dropped + _ + _ +
      s.connections.length
    rw [← waiting] at hset
    rcases hscreen with ⟨entry, heq, hrefusal, -⟩ | ⟨heq, -⟩
    · obtain ⟨rfl, rfl⟩ := Prod.mk.inj heq
      rw [List.countP_singleton, if_pos hrefusal]
      simp only [PassthroughListener.isLimiting, Bool.toNat_false] at hset
      omega
    · obtain ⟨rfl, rfl⟩ := Prod.mk.inj heq
      simp only [PassthroughListener.isLimiting, Bool.toNat_false, Bool.toNat_true] at hset
      rw [List.countP_nil]
      omega
  · intro c conn hc
    rw [reportsOf_report_ne _ _ _ _ (by simp)]
    exact hs.narrated c conn hc
  · intro c hc
    rw [reportsOf_report_ne _ _ _ _ (by simp)]
    exact hs.unborn c hc
  · intro m pcfg' peer' hm
    by_cases hmn : n = m
    · subst hmn
      have hnew : (s.listeners.set n ⟨pcfg, loop⟩)[n]? = some ⟨pcfg', .limiting peer'⟩ := hm
      rw [List.getElem?_set_self hlt] at hnew
      obtain ⟨rfl, rfl⟩ := PassthroughListener.mk.inj (Option.some.inj hnew)
      rcases hscreen with ⟨entry, heq, -⟩ | ⟨heq, hallowed, hopen⟩
      · cases heq
      · cases heq
        exact hrun.occurred_last ⟨n, rfl, hget, hallowed, hopen⟩
    · have hold : (s.listeners.set n ⟨pcfg, loop⟩)[m]? = some ⟨pcfg', .limiting peer'⟩ := hm
      rw [List.getElem?_set_ne hmn] at hold
      exact (hs.screening m pcfg' peer' hold).snoc _
  · intro c conn hc
    exact (hs.screened c conn hc).snoc _

theorem Forwards.answered (hs : s.Forwards cfg lists cfgs happenings) {n now : Nat}
    {peer : SocketAddr} {pcfg : TcpPassthroughConfig}
    (hget : s.listeners[n]? = some ⟨pcfg, .limiting peer⟩) (rates : RateTable) (allowed : Bool) :
    ((s.setRates rates).answered n pcfg peer now allowed).Forwards cfg lists cfgs
      (happenings ++ [.limited n now]) := by
  have hlt : n < s.listeners.length := (List.getElem?_eq_some_iff.mp hget).1
  have hset := countP_set_add (p := PassthroughListener.isLimiting) hget ⟨pcfg, .accepting⟩
  simp only [PassthroughListener.isLimiting, Bool.toNat_true, Bool.toNat_false] at hset
  have hscreening : ∀ (m : Nat) (pcfg' : TcpPassthroughConfig) (peer' : SocketAddr),
      (s.listeners.set n ⟨pcfg, .accepting⟩)[m]? = some ⟨pcfg', .limiting peer'⟩ →
      Occurred (Service.step cfg) (Screens cfg pcfg' peer') (.initial lists cfgs)
        (happenings ++ [.limited n now]) := by
    intro m pcfg' peer' hm
    by_cases hmn : n = m
    · subst hmn
      rw [List.getElem?_set_self hlt] at hm
      cases hm
    · rw [List.getElem?_set_ne hmn] at hm
      exact (hs.screening m pcfg' peer' hm).snoc _
  have haccepted : (happenings ++ [Happening.limited n now]).countP Happening.isAccepted =
      s.dropped + s.waiting + s.connections.length := by
    rw [countP_concat, hs.accounted]
    rfl
  cases allowed with
  | false =>
      refine ⟨hs.gauge, ?_, ?_, ?_, hscreening, ?_⟩
      · rw [haccepted]
        change _ = (((s.setRates rates).setLoop n pcfg .accepting).asked _ _ _ |>.report _
          (pcfg.reportLimited peer)).dropped + (s.listeners.set n ⟨pcfg, .accepting⟩).countP
            PassthroughListener.isLimiting + s.connections.length
        rw [dropped_report, dropped_congr (s := s) rfl]
        change s.dropped + s.waiting + _ = s.dropped + 1 + _ + _
        rw [← waiting] at hset
        omega
      · intro c conn hc
        rw [reportsOf_answered _ _ _ _ _ _ (by simp)]
        exact hs.narrated c conn hc
      · intro c hc
        rw [reportsOf_answered _ _ _ _ _ _ (by simp)]
        exact hs.unborn c hc
      · intro c conn hc
        exact (hs.screened c conn hc).snoc _
  | true =>
      have hconnections : ((s.setRates rates).answered n pcfg peer now true).connections =
          s.connections ++ [⟨pcfg, peer, .spawned⟩] := rfl
      have hreports : ∀ c, ((s.setRates rates).answered n pcfg peer now true).reportsOf
          (.connection c) = s.reportsOf (.connection c) := fun c => rfl
      refine ⟨?_, ?_, ?_, ?_, hscreening, ?_⟩
      · rw [hconnections, countP_concat]
        exact hs.gauge
      · rw [haccepted, hconnections, List.length_append]
        change _ = s.dropped + (s.listeners.set n ⟨pcfg, .accepting⟩).countP
          PassthroughListener.isLimiting + (s.connections.length + 1)
        rw [← waiting] at hset
        omega
      · intro c conn hc
        rw [hreports]
        rw [hconnections] at hc
        rcases Nat.lt_or_ge c s.connections.length with hold | hnew
        · rw [List.getElem?_append_left hold] at hc
          exact hs.narrated c conn hc
        · rw [List.getElem?_append_right hnew, List.getElem?_singleton] at hc
          split at hc
          · obtain rfl := Option.some.inj hc
            rw [hs.unborn c hnew]
            exact .spawned rfl
          · cases hc
      · intro c hc
        rw [hconnections, List.length_append] at hc
        rw [hreports]
        exact hs.unborn c (Nat.le_of_succ_le hc)
      · intro c conn hc
        rw [hconnections] at hc
        rcases Nat.lt_or_ge c s.connections.length with hold | hnew
        · rw [List.getElem?_append_left hold] at hc
          exact (hs.screened c conn hc).snoc _
        · rw [List.getElem?_append_right hnew, List.getElem?_singleton] at hc
          split at hc
          · obtain rfl := Option.some.inj hc
            exact (hs.screening n pcfg peer hget).snoc _
          · cases hc

theorem Forwards.moved (hs : s.Forwards cfg lists cfgs happenings) (haccepted : a.isAccepted = false)
    {c : Nat} {conn : PassthroughConnection} (hget : s.connections[c]? = some conn)
    (phase : ConnectionPhase) {active : UInt64} {entry : AuditEntry}
    (hrefusal : (Notice.audit entry).isPassthroughRefusal = false)
    (hgauge : active = UInt64.ofNat ((s.connections.set c { conn with phase := phase }).countP
      PassthroughConnection.isForwarding))
    (hnarrated : PassthroughConnection.Narrated { conn with phase := phase }
      (s.reportsOf (.connection c) ++ [.audit entry])) :
    ((s.setConnection c { conn with phase := phase } active).report (.connection c)
      [.audit entry]).Forwards cfg lists cfgs (happenings ++ [a]) := by
  have hlt : c < s.connections.length := (List.getElem?_eq_some_iff.mp hget).1
  have hother : ∀ d, d ≠ c → ((s.setConnection c { conn with phase := phase } active).report
      (.connection c) [.audit entry]).reportsOf (.connection d) = s.reportsOf (.connection d) := by
    intro d hd
    rw [reportsOf_report_ne _ _ _ _ (by simpa using hd)]
    rfl
  have hconnections : ((s.setConnection c { conn with phase := phase } active).report
      (.connection c) [.audit entry]).connections =
        s.connections.set c { conn with phase := phase } := rfl
  refine ⟨hgauge, ?_, ?_, ?_, ?_, ?_⟩
  · rw [countP_concat, haccepted, hs.accounted, dropped_report, List.countP_singleton, hrefusal,
      hconnections, List.length_set]
    rfl
  · intro d conn' hd
    rw [hconnections] at hd
    by_cases hcd : c = d
    · subst hcd
      rw [List.getElem?_set_self hlt] at hd
      obtain rfl := Option.some.inj hd
      rw [reportsOf_report_self]
      exact hnarrated
    · rw [List.getElem?_set_ne hcd] at hd
      rw [hother d (Ne.symm hcd)]
      exact hs.narrated d conn' hd
  · intro d hd
    rw [hconnections, List.length_set] at hd
    rw [hother d (by omega)]
    exact hs.unborn d hd
  · intro n pcfg peer hn
    exact (hs.screening n pcfg peer hn).snoc _
  · intro d conn' hd
    rw [hconnections] at hd
    by_cases hcd : c = d
    · subst hcd
      rw [List.getElem?_set_self hlt] at hd
      obtain rfl := Option.some.inj hd
      exact (hs.screened c conn hget).snoc _
    · rw [List.getElem?_set_ne hcd] at hd
      exact (hs.screened d conn' hd).snoc _

theorem Forwards.step (hs : s.Forwards cfg lists cfgs happenings)
    (hrun : FreeRun (Service.step cfg) (.initial lists cfgs) happenings s)
    (hstep : s.step cfg a = some s') : s'.Forwards cfg lists cfgs (happenings ++ [a]) := by
  cases step_cases hstep with
  | @handled i input m h h' sh' hget hown =>
      refine hs.frame rfl (active_handled ..) (connections_handled ..) (listeners_handled ..) ?_ ?_
      · rw [Service.handled, dropped_report, countP_report_refusal, Nat.add_zero]
        exact dropped_congr (journal_askedBy ..)
      · exact fun c => reportsOf_handled_ne _ _ _ _ _ _ _ (by simp)
  | connected => exact hs.frame rfl rfl rfl rfl rfl fun _ => rfl
  | aside => exact hs.frame rfl rfl rfl rfl rfl fun _ => rfl
  | screened hget => exact hs.screened_step hrun hget
  | answered hget => exact hs.answered hget _ _
  | @started c pcfg peer hget =>
      have hreports : s.reportsOf (.connection c) = [] := by
        have hbefore := hs.narrated c _ hget
        generalize s.reportsOf (.connection c) = reports at hbefore
        cases hbefore with
        | spawned => rfl
        | forwarding hphase => cases hphase
        | closed hphase => cases hphase
      refine hs.moved rfl hget .forwarding rfl ?_ ?_
      · exact gauge_enter hs.gauge hget rfl rfl
      · rw [hreports]
        exact .forwarding rfl
  | @finished c pcfg peer bytesIn bytesOut hget =>
      have hreports : s.reportsOf (.connection c) =
          [.audit (PassthroughConnection.connectEvent ⟨pcfg, peer, .forwarding⟩)] := by
        have hbefore := hs.narrated c _ hget
        generalize s.reportsOf (.connection c) = reports at hbefore
        cases hbefore with
        | spawned hphase => cases hphase
        | forwarding => rfl
        | closed hphase => cases hphase
      refine hs.moved rfl hget .closed rfl ?_ ?_
      · exact gauge_leave hs.gauge hget rfl rfl
      · rw [hreports]
        exact .closed rfl

end Steps

theorem forwards_served {cfg : ServiceConfig} {lists : Lists} {cfgs : List TcpPassthroughConfig}
    {happenings : List Happening} {s : Service}
    (hrun : FreeRun (Service.step cfg) (.initial lists cfgs) happenings s) :
    s.Forwards cfg lists cfgs happenings := by
  induction hrun with
  | nil =>
      refine ⟨rfl, ?_, ?_, ?_, ?_, ?_⟩
      · have hwaiting : (cfgs.map fun cfg => (⟨cfg, .accepting⟩ : PassthroughListener)).countP
            PassthroughListener.isLimiting = 0 := by
          simp [List.countP_map, Function.comp_def, PassthroughListener.isLimiting]
        rw [waiting, initial, hwaiting]
        rfl
      · intro c conn hget
        simp [initial] at hget
      · intro c _
        rfl
      · intro n pcfg peer hget
        simp [initial] at hget
      · intro c conn hget
        simp [initial] at hget
  | snoc hinit _ hlast ih => exact ih.step hinit hlast

end Service

end Seamless.Relay
