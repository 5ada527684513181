import Mathlib.Logic.Function.Basic
import Seamless.Relay.PassthroughListener
import Seamless.Relay.RateLimiter
import Seamless.Relay.System

/-!
The relay with its passthrough listeners and with everything that it reports. Calls of
`handle_client` and accept loops share the deny list and the rate limiter; their reports
end in the same counters and in the same audit log.
-/

namespace Seamless.Relay

open Seamless.Library
open Seamless.Library.NetAddr
open Seamless.Library.SlidingWindow
open Seamless.Library.TransitionSystem

structure ServiceConfig where
  relay : Config
  -- Seconds between two pings. 0 = no deadline for them.
  tunnelKeepalive : UInt64
  geoip : GeoipFilter

/-- The counters that calls and accept loops touch. -/
structure Metrics where
  handshakeMsTotal : UInt64
  handshakeCount : UInt64
  authFailuresTotal : UInt64
  rateLimitHitsTotal : UInt64
  tunnelCapRejectionsTotal : UInt64
  subdomainInvalidTotal : UInt64
  tunnelPerIpRejectionsTotal : UInt64
  deriving Repr, DecidableEq

namespace Metrics

def zero : Metrics := ⟨0, 0, 0, 0, 0, 0, 0⟩

def get (m : Metrics) : Counter → UInt64
  | .authFailures => m.authFailuresTotal
  | .rateLimitHits => m.rateLimitHitsTotal
  | .tunnelPerIpRejections => m.tunnelPerIpRejectionsTotal
  | .tunnelCapRejections => m.tunnelCapRejectionsTotal
  | .subdomainInvalid => m.subdomainInvalidTotal
  | .handshakes => m.handshakeCount

def inc (m : Metrics) : Counter → Metrics
  | .authFailures => { m with authFailuresTotal := m.authFailuresTotal + 1 }
  | .rateLimitHits => { m with rateLimitHitsTotal := m.rateLimitHitsTotal + 1 }
  | .tunnelPerIpRejections =>
      { m with tunnelPerIpRejectionsTotal := m.tunnelPerIpRejectionsTotal + 1 }
  | .tunnelCapRejections => { m with tunnelCapRejectionsTotal := m.tunnelCapRejectionsTotal + 1 }
  | .subdomainInvalid => { m with subdomainInvalidTotal := m.subdomainInvalidTotal + 1 }
  | .handshakes => { m with handshakeCount := m.handshakeCount + 1 }

def record (m : Metrics) : Notice → Metrics
  | .count counter => m.inc counter
  | .handshakeMs ms => { m with handshakeMsTotal := m.handshakeMsTotal + ms }
  | .audit _ | .webhook _ => m

theorem get_inc (m : Metrics) (c d : Counter) :
    (m.inc c).get d = if c = d then m.get d + 1 else m.get d := by
  cases c <;> cases d <;> rfl

theorem get_record (m : Metrics) (notice : Notice) (c : Counter) :
    (m.record notice).get c = if notice = .count c then m.get c + 1 else m.get c := by
  cases notice with
  | count counter => simp [record, get_inc]
  | handshakeMs ms => cases c <;> simp [record, get]
  | audit entry => simp [record]
  | webhook post => simp [record]

end Metrics

/-- Who reports: a call, an accept loop or the task of a connection. -/
inductive Reporter where
  | call (i : MuxId)
  | listener (n : Nat)
  | connection (c : Nat)
  deriving Repr, DecidableEq

/-- History of the rate limiter: who asked, and when for which address. -/
structure Ask where
  who : Reporter
  call : RateCall
  deriving Repr, DecidableEq

/-- `active` is `TCP_PASSTHROUGH_CONNECTIONS_ACTIVE`. The journal has all reports in their
order; `admitted` and `turnedAway` are history, no code reads them. -/
structure Service where
  system : System
  locals : MuxId → CallLocals
  listeners : List PassthroughListener
  connections : List PassthroughConnection
  active : UInt64
  metrics : Metrics
  journal : List (Reporter × Notice)
  admitted : List Ask
  turnedAway : List Ask

inductive Happening where
  | relay (label : Label) (moment : Moment)
  -- `accept` of listener `n` returns a connection.
  | accepted (n : Nat) (peer : SocketAddr)
  -- Listener `n` gets its answer from the rate limiter.
  | limited (n : Nat) (now : Nat)
  | started (c : Nat)
  | finished (c : Nat) (bytesIn bytesOut : UInt64)

namespace Service

def initial (lists : Lists) (cfgs : List TcpPassthroughConfig) : Service where
  system := .initial lists
  locals := fun _ => .start
  listeners := cfgs.map fun cfg => ⟨cfg, .accepting⟩
  connections := []
  active := 0
  metrics := .zero
  journal := []
  admitted := []
  turnedAway := []

def report (s : Service) (who : Reporter) (notices : List Notice) : Service :=
  { s with
    metrics := notices.foldl Metrics.record s.metrics
    journal := s.journal ++ notices.map fun notice => (who, notice) }

def asked (s : Service) (who : Reporter) (call : RateCall) (allowed : Bool) : Service :=
  if allowed then { s with admitted := s.admitted ++ [⟨who, call⟩] }
  else { s with turnedAway := s.turnedAway ++ [⟨who, call⟩] }

/-- The history of a step of call `i`: only a step on the clock asks the rate limiter. -/
def askedBy (s : Service) (cfg : Config) (sh : Shared) (i : MuxId) (h : Handler) :
    Input → Service
  | .instant now => s.asked (.call i) ⟨h.clientIp, now⟩ (checkAndRecord cfg sh.rates h.clientIp now).1
  | _ => s

/-- The service after a step of call `i`, which was at `h`. -/
def handled (cfg : ServiceConfig) (s : Service) (i : MuxId) (input : Input) (h : Handler)
    (m : Moment) (system : System) : Service :=
  let sh := s.system.shared
  let locals := h.nextLocals cfg.tunnelKeepalive cfg.relay (s.locals i) m input
  (({ s with
      system := system
      locals := Function.update s.locals i locals }).askedBy cfg.relay sh i h input).report (.call i)
    (h.report cfg.relay sh (s.locals i) m input)

def setRates (s : Service) (rates : RateTable) : Service :=
  { s with system := { s.system with shared := { s.system.shared with rates := rates } } }

def setLoop (s : Service) (n : Nat) (cfg : TcpPassthroughConfig) (loop : AcceptLoop) : Service :=
  { s with listeners := s.listeners.set n ⟨cfg, loop⟩ }

def spawn (s : Service) (conn : PassthroughConnection) : Service :=
  { s with connections := s.connections ++ [conn] }

def setConnection (s : Service) (c : Nat) (conn : PassthroughConnection) (active : UInt64) :
    Service :=
  { s with connections := s.connections.set c conn, active := active }

/-- The rest of a turn of an accept loop, with the limiter's answer. -/
def answered (s : Service) (n : Nat) (cfg : TcpPassthroughConfig) (peer : SocketAddr) (now : Nat)
    (allowed : Bool) : Service :=
  let s := s.setLoop n cfg .accepting
  if allowed then
    (s.spawn ⟨cfg, peer, .spawned⟩).asked (.connection s.connections.length)
      ⟨peer.ip.toString, now⟩ true
  else
    (s.asked (.listener n) ⟨peer.ip.toString, now⟩ false).report (.listener n)
      (cfg.reportLimited peer)

def step (cfg : ServiceConfig) (s : Service) : Happening → Option Service
  | .relay label m =>
      (s.system.step cfg.relay label).map fun system =>
        match label with
        | .handler i input =>
            match s.system.handlers[i]? with
            | some h => s.handled cfg i input h m system
            | none => { s with system := system }
        | _ => { s with system := system }
  | .accepted n peer =>
      match s.listeners[n]? with
      | some ⟨pcfg, .accepting⟩ =>
          let outcome := pcfg.screen s.system.shared.lists cfg.geoip peer
          some ((s.setLoop n pcfg outcome.1).report (.listener n) outcome.2)
      | _ => none
  | .limited n now =>
      match s.listeners[n]? with
      | some ⟨pcfg, .limiting peer⟩ =>
          let outcome := checkAndRecord cfg.relay s.system.shared.rates peer.ip.toString now
          some ((s.setRates outcome.2).answered n pcfg peer now outcome.1)
      | _ => none
  | .started c =>
      match s.connections[c]? with
      | some ⟨pcfg, peer, .spawned⟩ =>
          let conn : PassthroughConnection := ⟨pcfg, peer, .forwarding⟩
          some ((s.setConnection c conn (s.active + 1)).report (.connection c)
            [.audit conn.connectEvent])
      | _ => none
  | .finished c bytesIn bytesOut =>
      match s.connections[c]? with
      | some ⟨pcfg, peer, .forwarding⟩ =>
          let conn : PassthroughConnection := ⟨pcfg, peer, .closed⟩
          some ((s.setConnection c conn (s.active - 1)).report (.connection c)
            [.audit (conn.disconnectEvent bytesIn bytesOut)])
      | _ => none

end Service

/-- The instants that the rate limiter reads never go back. -/
def Happening.Chronological (s : Service) : Happening → Prop
  | .relay (.handler _ (.instant now)) _ | .limited _ now =>
      ∀ ask ∈ s.admitted ++ s.turnedAway, ask.call.time ≤ now
  | _ => True

abbrev Served (cfg : ServiceConfig) (guard : Service → Happening → Prop) (lists : Lists)
    (cfgs : List TcpPassthroughConfig) (happenings : List Happening) (s : Service) : Prop :=
  Run (Service.step cfg) guard (Service.initial lists cfgs) happenings s

/-- The steps of the relay that are not those of a call leave the calls there are and the
rate limiter alone. -/
structure Aside (s s' : System) : Prop where
  handlers : s'.handlers = s.handlers
  rates : s'.shared.rates = s.shared.rates

/-- Everything a step of the service can do. -/
inductive ServiceStep (cfg : ServiceConfig) (s : Service) : Happening → Service → Prop
  | handled {i : MuxId} {input : Input} {m : Moment} {h h' : Handler} {sh' : Shared}
      (hget : s.system.handlers[i]? = some h)
      (hstep : h.step cfg.relay i s.system.shared input = some (h', sh')) :
      ServiceStep cfg s (.relay (.handler i input) m)
        (s.handled cfg i input h m
          { s.system with shared := sh', handlers := s.system.handlers.set i h' })
  | connected {client : IpAddr} {m : Moment} :
      ServiceStep cfg s (.relay (.connect client) m)
        { s with
          system := { s.system with handlers := s.system.handlers ++ [.accepted client] } }
  | aside {label : Label} {m : Moment} {system : System} (haside : Aside s.system system) :
      ServiceStep cfg s (.relay label m) { s with system := system }
  | screened {n : Nat} {peer : SocketAddr} {pcfg : TcpPassthroughConfig}
      (hget : s.listeners[n]? = some ⟨pcfg, .accepting⟩) :
      ServiceStep cfg s (.accepted n peer)
        ((s.setLoop n pcfg (pcfg.screen s.system.shared.lists cfg.geoip peer).1).report
          (.listener n) (pcfg.screen s.system.shared.lists cfg.geoip peer).2)
  | answered {n now : Nat} {peer : SocketAddr} {pcfg : TcpPassthroughConfig}
      (hget : s.listeners[n]? = some ⟨pcfg, .limiting peer⟩) :
      ServiceStep cfg s (.limited n now)
        ((s.setRates (checkAndRecord cfg.relay s.system.shared.rates peer.ip.toString now).2).answered
          n pcfg peer now (checkAndRecord cfg.relay s.system.shared.rates peer.ip.toString now).1)
  | started {c : Nat} {pcfg : TcpPassthroughConfig} {peer : SocketAddr}
      (hget : s.connections[c]? = some ⟨pcfg, peer, .spawned⟩) :
      ServiceStep cfg s (.started c)
        ((s.setConnection c ⟨pcfg, peer, .forwarding⟩ (s.active + 1)).report (.connection c)
          [.audit (PassthroughConnection.connectEvent ⟨pcfg, peer, .forwarding⟩)])
  | finished {c : Nat} {pcfg : TcpPassthroughConfig} {peer : SocketAddr}
      {bytesIn bytesOut : UInt64}
      (hget : s.connections[c]? = some ⟨pcfg, peer, .forwarding⟩) :
      ServiceStep cfg s (.finished c bytesIn bytesOut)
        ((s.setConnection c ⟨pcfg, peer, .closed⟩ (s.active - 1)).report (.connection c)
          [.audit (PassthroughConnection.disconnectEvent ⟨pcfg, peer, .closed⟩ bytesIn bytesOut)])

theorem Shared.rates_sweep (cfg : Config) (now : Int) (sh : Shared) :
    (sh.sweep cfg now).rates = sh.rates := by
  unfold Shared.sweep
  generalize sh.tunnels.entries.filter (fun e => Shared.isExpired cfg now e.2) = expired
  induction expired generalizing sh with
  | nil => rfl
  | cons e expired ih => exact ih (sh.evict e.1 e.2)

theorem System.rates_adminStep {s s' : System} {n : Nat} (h : s.adminStep n = some s') :
    s'.shared.rates = s.shared.rates := by
  unfold System.adminStep at h
  split at h <;> cases h <;> rfl

theorem System.aside_of_step {cfg : Config} {s s' : System} {label : Label}
    (hhandler : ∀ i input, label ≠ .handler i input) (hconnect : ∀ client, label ≠ .connect client)
    (hstep : s.step cfg label = some s') : Aside s s' where
  handlers := by
    cases System.step_cases hstep with
    | connected client => exact absurd rfl (hconnect client)
    | handled => exact absurd rfl (hhandler _ _)
    | evicted => rfl
    | quiet hquiet => exact hquiet.handlers
  rates := by
    by_cases haside : label.Aside
    · obtain ⟨lists, admins, rfl⟩ := System.step_of_aside haside hstep
      rfl
    cases label with
    | connect client => exact absurd rfl (hconnect client)
    | handler i input => exact absurd rfl (hhandler i input)
    | sweep now =>
        obtain rfl := System.sweep_cases hstep
        exact Shared.rates_sweep cfg now s.shared
    | shutdown =>
        obtain rfl := System.shutdown_cases hstep
        rfl
    | removeCustomDomain tunnelId =>
        cases hstep
        rfl
    | adminStep n => exact System.rates_adminStep hstep
    | lookupDomain host =>
        simp only [System.step] at hstep
        split at hstep <;> cases hstep <;> rfl
    | routeDomain n =>
        obtain ⟨lookups, routed, rfl⟩ := System.routeDomain_frame (System.routeDomain_cases hstep)
        rfl
    | _ => exact absurd trivial haside

theorem Service.step_cases {cfg : ServiceConfig} {s s' : Service} {a : Happening}
    (hstep : s.step cfg a = some s') : ServiceStep cfg s a s' := by
  cases a with
  | relay label m =>
      simp only [Service.step, Option.map_eq_some_iff] at hstep
      obtain ⟨system, hsystem, rfl⟩ := hstep
      cases label with
      | handler i input =>
          obtain ⟨h, h', sh', hget, hhandler, rfl⟩ := System.handler_step hsystem
          simp only [hget]
          exact .handled hget hhandler
      | connect client =>
          cases hsystem
          exact .connected
      | _ => exact .aside (System.aside_of_step (by simp) (by simp) hsystem)
  | accepted n peer =>
      simp only [Service.step] at hstep
      split at hstep
      · rename_i pcfg hget
        cases hstep
        exact .screened hget
      · cases hstep
  | limited n now =>
      simp only [Service.step] at hstep
      split at hstep
      · rename_i pcfg peer hget
        cases hstep
        exact .answered hget
      · cases hstep
  | started c =>
      simp only [Service.step] at hstep
      split at hstep
      · rename_i pcfg peer hget
        cases hstep
        exact .started hget
      · cases hstep
  | finished c bytesIn bytesOut =>
      simp only [Service.step] at hstep
      split at hstep
      · rename_i pcfg peer hget
        cases hstep
        exact .finished hget
      · cases hstep

namespace Service

/-- The reports of `who`, in their order. -/
def reportsOf (s : Service) (who : Reporter) : List Notice :=
  (s.journal.filter fun r => r.1 = who).map Prod.snd

section Frame

variable (s : Service) (who other : Reporter) (notices : List Notice)

@[simp] theorem reportsOf_report_self :
    (s.report who notices).reportsOf who = s.reportsOf who ++ notices := by
  simp [reportsOf, report, List.filter_map, Function.comp_def]

@[simp] theorem reportsOf_report_ne (h : other ≠ who) :
    (s.report who notices).reportsOf other = s.reportsOf other := by
  simp [reportsOf, report, List.filter_map, Function.comp_def, Ne.symm h]

@[simp] theorem system_report : (s.report who notices).system = s.system := rfl

@[simp] theorem locals_report : (s.report who notices).locals = s.locals := rfl

@[simp] theorem connections_report : (s.report who notices).connections = s.connections := rfl

@[simp] theorem active_report : (s.report who notices).active = s.active := rfl

variable (call : RateCall) (allowed : Bool)

@[simp] theorem system_asked : (s.asked who call allowed).system = s.system := by
  cases allowed <;> rfl

@[simp] theorem locals_asked : (s.asked who call allowed).locals = s.locals := by
  cases allowed <;> rfl

@[simp] theorem journal_asked : (s.asked who call allowed).journal = s.journal := by
  cases allowed <;> rfl

@[simp] theorem metrics_asked : (s.asked who call allowed).metrics = s.metrics := by
  cases allowed <;> rfl

@[simp] theorem connections_asked : (s.asked who call allowed).connections = s.connections := by
  cases allowed <;> rfl

@[simp] theorem listeners_asked : (s.asked who call allowed).listeners = s.listeners := by
  cases allowed <;> rfl

@[simp] theorem active_asked : (s.asked who call allowed).active = s.active := by
  cases allowed <;> rfl

end Frame

section Steps

variable (cfg : ServiceConfig) (s : Service) (i : MuxId) (input : Input) (h : Handler) (m : Moment)
  (system : System)

@[simp] theorem system_askedBy (c : Config) (sh : Shared) :
    (s.askedBy c sh i h input).system = s.system := by
  cases input <;> simp [askedBy]

@[simp] theorem locals_askedBy (c : Config) (sh : Shared) :
    (s.askedBy c sh i h input).locals = s.locals := by
  cases input <;> simp [askedBy]

@[simp] theorem journal_askedBy (c : Config) (sh : Shared) :
    (s.askedBy c sh i h input).journal = s.journal := by
  cases input <;> simp [askedBy]

@[simp] theorem metrics_askedBy (c : Config) (sh : Shared) :
    (s.askedBy c sh i h input).metrics = s.metrics := by
  cases input <;> simp [askedBy]

@[simp] theorem connections_askedBy (c : Config) (sh : Shared) :
    (s.askedBy c sh i h input).connections = s.connections := by
  cases input <;> simp [askedBy]

@[simp] theorem listeners_askedBy (c : Config) (sh : Shared) :
    (s.askedBy c sh i h input).listeners = s.listeners := by
  cases input <;> simp [askedBy]

@[simp] theorem active_askedBy (c : Config) (sh : Shared) :
    (s.askedBy c sh i h input).active = s.active := by
  cases input <;> simp [askedBy]

@[simp] theorem system_handled : (s.handled cfg i input h m system).system = system := by
  simp [handled]

@[simp] theorem locals_handled : (s.handled cfg i input h m system).locals =
    Function.update s.locals i
      (h.nextLocals cfg.tunnelKeepalive cfg.relay (s.locals i) m input) := by
  simp [handled]

@[simp] theorem connections_handled :
    (s.handled cfg i input h m system).connections = s.connections := by
  simp [handled]

@[simp] theorem listeners_handled :
    (s.handled cfg i input h m system).listeners = s.listeners := by
  simp [handled, report]

@[simp] theorem active_handled : (s.handled cfg i input h m system).active = s.active := by
  simp [handled]

theorem reportsOf_congr {s s' : Service} (h : s'.journal = s.journal) (who : Reporter) :
    s'.reportsOf who = s.reportsOf who := by
  rw [reportsOf, h, reportsOf]

theorem reportsOf_handled_self :
    (s.handled cfg i input h m system).reportsOf (.call i) = s.reportsOf (.call i) ++
      h.report cfg.relay s.system.shared (s.locals i) m input := by
  rw [handled, reportsOf_report_self, reportsOf_congr]
  simp

theorem reportsOf_handled_ne {who : Reporter} (hwho : who ≠ .call i) :
    (s.handled cfg i input h m system).reportsOf who = s.reportsOf who := by
  rw [handled, reportsOf_report_ne _ _ _ _ hwho, reportsOf_congr]
  simp

variable (n : Nat) (pcfg : TcpPassthroughConfig) (peer : SocketAddr) (now : Nat) (allowed : Bool)

@[simp] theorem system_answered : (s.answered n pcfg peer now allowed).system = s.system := by
  cases allowed <;> rfl

@[simp] theorem locals_answered : (s.answered n pcfg peer now allowed).locals = s.locals := by
  cases allowed <;> rfl

@[simp] theorem active_answered : (s.answered n pcfg peer now allowed).active = s.active := by
  cases allowed <;> rfl

theorem reportsOf_answered {who : Reporter} (hwho : who ≠ .listener n) :
    (s.answered n pcfg peer now allowed).reportsOf who = s.reportsOf who := by
  cases allowed with
  | false =>
      simp only [answered, Bool.false_eq_true, if_false]
      rw [reportsOf_report_ne _ _ _ _ hwho, reportsOf_congr]
      simp [setLoop]
  | true => rfl

end Steps

/-- Every call, with its locals and its reports, is as `Q` says. -/
def EachCall (Q : MuxId → Handler → CallLocals → List Notice → Prop) (s : Service) : Prop :=
  ∀ i h, s.system.handlers[i]? = some h → Q i h (s.locals i) (s.reportsOf (.call i))

/-- Nothing is known or reported of calls that are still to come. -/
def Unborn (s : Service) : Prop :=
  ∀ i, s.system.handlers.length ≤ i → s.locals i = .start ∧ s.reportsOf (.call i) = []

/-- What a step of the service can do to the calls, their locals and their reports. -/
inductive CallsStep (cfg : ServiceConfig) (s s' : Service) : Prop
  | handled {i : MuxId} {input : Input} {m : Moment} {h h' : Handler} {sh' : Shared}
      (hget : s.system.handlers[i]? = some h)
      (hstep : h.step cfg.relay i s.system.shared input = some (h', sh'))
      (hhandlers : s'.system.handlers = s.system.handlers.set i h')
      (hlocals : s'.locals = Function.update s.locals i
        (h.nextLocals cfg.tunnelKeepalive cfg.relay (s.locals i) m input))
      (hown : s'.reportsOf (.call i) = s.reportsOf (.call i) ++
        h.report cfg.relay s.system.shared (s.locals i) m input)
      (hothers : ∀ j, j ≠ i → s'.reportsOf (.call j) = s.reportsOf (.call j))
  | connected (client : IpAddr)
      (hhandlers : s'.system.handlers = s.system.handlers ++ [.accepted client])
      (hlocals : s'.locals = s.locals)
      (hreports : ∀ i, s'.reportsOf (.call i) = s.reportsOf (.call i))
  | same (hhandlers : s'.system.handlers = s.system.handlers) (hlocals : s'.locals = s.locals)
      (hreports : ∀ i, s'.reportsOf (.call i) = s.reportsOf (.call i))

theorem callsStep {cfg : ServiceConfig} {s s' : Service} {a : Happening}
    (hstep : s.step cfg a = some s') : CallsStep cfg s s' := by
  cases step_cases hstep with
  | handled hget hhandler =>
      refine .handled hget hhandler (by simp) (locals_handled _ _ _ _ _ _ _)
        (reportsOf_handled_self _ _ _ _ _ _ _) fun j hj => ?_
      exact reportsOf_handled_ne _ _ _ _ _ _ _ (by simpa using hj)
  | @connected client => exact .connected client rfl rfl fun _ => rfl
  | aside haside => exact .same haside.handlers rfl fun _ => rfl
  | screened => exact .same rfl rfl fun i => reportsOf_report_ne _ _ _ _ (by simp)
  | answered =>
      exact .same (by simp [setRates]) (by simp [setRates]) fun i =>
        reportsOf_answered _ _ _ _ _ _ (by simp)
  | started => exact .same rfl rfl fun i => reportsOf_report_ne _ _ _ _ (by simp)
  | finished => exact .same rfl rfl fun i => reportsOf_report_ne _ _ _ _ (by simp)

theorem Unborn.step {cfg : ServiceConfig} {s s' : Service} {a : Happening} (hs : s.Unborn)
    (hstep : s.step cfg a = some s') : s'.Unborn := by
  intro j hj
  cases callsStep hstep with
  | @handled i _ _ _ _ _ hget _ hhandlers hlocals _ hothers =>
      have hlt : i < s.system.handlers.length := (List.getElem?_eq_some_iff.mp hget).1
      rw [hhandlers, List.length_set] at hj
      have hne : j ≠ i := fun hji => absurd hlt (Nat.not_lt.mpr (hji ▸ hj))
      rw [hlocals, Function.update_of_ne hne, hothers j hne]
      exact hs j hj
  | connected client hhandlers hlocals hreports =>
      rw [hhandlers, List.length_append] at hj
      rw [hlocals, hreports]
      exact hs j (by omega)
  | same hhandlers hlocals hreports =>
      rw [hlocals, hreports]
      exact hs j (hhandlers ▸ hj)

/-- A fact about a call, its locals and its reports that holds when the call begins and
that each of its steps keeps holds of all calls. -/
theorem EachCall.step {cfg : ServiceConfig}
    {Q : MuxId → Handler → CallLocals → List Notice → Prop} {s s' : Service} {a : Happening}
    (hs : s.EachCall Q) (hunborn : s.Unborn) (hstep : s.step cfg a = some s')
    (haccepted : ∀ i client, Q i (.accepted client) .start [])
    (hkept : ∀ i sh h input h' sh' l m notices,
      h.step cfg.relay i sh input = some (h', sh') → Q i h l notices →
      Q i h' (h.nextLocals cfg.tunnelKeepalive cfg.relay l m input)
        (notices ++ h.report cfg.relay sh l m input)) :
    s'.EachCall Q := by
  intro j g hj
  cases callsStep hstep with
  | @handled i _ _ _ _ _ hget hown hhandlers hlocals hreports hothers =>
      rw [hhandlers] at hj
      rcases getElem?_set_cases hget hj with ⟨rfl, rfl⟩ | ⟨hji, hj⟩
      · rw [hlocals, Function.update_self, hreports]
        exact hkept _ _ _ _ _ _ _ _ _ hown (hs j _ hget)
      · rw [hlocals, Function.update_of_ne hji, hothers j hji]
        exact hs j g hj
  | connected client hhandlers hlocals hreports =>
      rw [hlocals, hreports]
      rw [hhandlers] at hj
      rcases Nat.lt_or_ge j s.system.handlers.length with hlt | hge
      · rw [List.getElem?_append_left hlt] at hj
        exact hs j g hj
      · obtain ⟨hlocal, hreport⟩ := hunborn j hge
        rw [List.getElem?_append_right hge, List.getElem?_singleton] at hj
        split at hj
        · obtain rfl := Option.some.inj hj
          rw [hlocal, hreport]
          exact haccepted j client
        · cases hj
  | same hhandlers hlocals hreports =>
      rw [hlocals, hreports]
      exact hs j g (hhandlers ▸ hj)

theorem eachCall_served {cfg : ServiceConfig}
    {Q : MuxId → Handler → CallLocals → List Notice → Prop}
    {guard : Service → Happening → Prop} {lists : Lists} {cfgs : List TcpPassthroughConfig}
    {happenings : List Happening} {s : Service} (hrun : Served cfg guard lists cfgs happenings s)
    (haccepted : ∀ i client, Q i (.accepted client) .start [])
    (hkept : ∀ i sh h input h' sh' l m notices,
      h.step cfg.relay i sh input = some (h', sh') → Q i h l notices →
      Q i h' (h.nextLocals cfg.tunnelKeepalive cfg.relay l m input)
        (notices ++ h.report cfg.relay sh l m input)) :
    s.EachCall Q := by
  have hboth : s.EachCall Q ∧ s.Unborn := by
    refine hrun.invariant (I := fun s => s.EachCall Q ∧ s.Unborn) ⟨?_, ?_⟩ ?_
    · intro i h hget
      simp [initial, System.initial] at hget
    · intro i _
      exact ⟨rfl, rfl⟩
    · rintro t a u ⟨hcalls, hunborn⟩ _ hstep
      exact ⟨hcalls.step hunborn hstep haccepted hkept, hunborn.step hstep⟩
  exact hboth.1

end Service

end Seamless.Relay
