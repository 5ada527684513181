import Seamless.Relay.NameExclusion

/-!
Who holds the `tunnels` mutex while it waits. Most lock sections look something up
and give the mutex back before their next await; three keep it: the 409 reply of
`serve_http`, and the loops of the expiry task and of the SIGTERM task, which take
the mutex of one disconnect channel after the other. Here these two loops go entry
by entry, where `Relay.System` has them as one step.
-/

namespace Seamless.Relay

open Seamless.Common
open Seamless.Library
open Seamless.Library.TransitionSystem

/-- The sections that only read the map, or clone an entry out of it, and are not
steps of `Relay.System` by themselves. -/
inductive Glance where
  | routeHttp
  | routeHttpHealth
  | listSeamlessTunnels
  | getSeamlessTunnel
  | adminTunnelStats
  | adminPauseTunnel
  | adminResumeTunnel
  | healthCheck
  | readyCheck
  | metricsHandler
  -- The lookup of `set_custom_domain` after its write.
  | setCustomDomain
  | getDdosConfig
  | setDdosConfig
  | getTunnelRequests
  | listBackends
  | addBackend
  | removeBackend
  | forceHealthCheck
  | statsHistory

/-- A background task that holds the mutex, with the entries it has still to
signal. -/
inductive Background where
  | expiry (expired : List (Sigma fun _ : String => TunnelEntry))
  | sigterm (entries : List TunnelEntry)

structure Locked where
  sys : System
  task : Option Background

def Locked.initial (lists : Lists) : Locked := ⟨.initial lists, none⟩

/-- What a task waits for. The mutex of a disconnect channel is never held over an
await. -/
inductive Await where
  | clientStream (i : MuxId)
  | disconnectTx (i : MuxId)
  | nothing
  deriving DecidableEq

def Background.awaits : Background → Await
  | .expiry (x :: _) => .disconnectTx x.2.mux
  | .expiry [] => .nothing
  | .sigterm (entry :: _) => .disconnectTx entry.mux
  | .sigterm [] => .nothing

/-- What the next step of the task that holds the mutex waits for; `none` when the
mutex is free. -/
def Locked.holderAwaits (m : Locked) : Option Await :=
  match m.sys.shared.lock with
  | some i => some (.clientStream i)
  | none => m.task.map Background.awaits

def Pc.takesMutex (cfg : Config) : Pc → Bool
  | .perIpCheck _ => cfg.maxTunnelsPerIp != 0
  | .globalCheck _ => cfg.maxTunnels != 0
  | .httpInsert _ | .tcpInsertEntry _ | .cleaning _ => true
  | _ => false

def Label.takesMutex (cfg : Config) (s : System) : Label → Bool
  | .handler i _ => ((s.handlers[i]?).map fun h => h.pc.takesMutex cfg).getD false
  | .disconnectTunnel _ | .bulkDisconnect _ | .setCustomDomain _ _ | .routeDomain _ => true
  | _ => false

inductive Move where
  -- A step of the relay other than those of the two background tasks.
  | relay (label : Label)
  | glance (site : Glance)
  -- The expiry task takes the mutex.
  | expire (now : Int)
  -- The SIGTERM task takes the mutex.
  | terminate
  -- The background task that holds the mutex goes on.
  | resume

namespace Locked

def resume (m : Locked) : Background → Locked
  | .expiry (x :: expired) =>
      ⟨{ m.sys with shared := m.sys.shared.evict x.1 x.2 }, some (.expiry expired)⟩
  | .expiry [] => ⟨m.sys, none⟩
  | .sigterm (entry :: entries) =>
      ⟨{ m.sys with shared := m.sys.shared.signal entry.mux }, some (.sigterm entries)⟩
  | .sigterm [] =>
      ⟨{ m.sys with shared := { m.sys.shared with
        tunnels := ∅
        swept := (KeyedTable.values m.sys.shared.tunnels).map TunnelEntry.mux ++
          m.sys.shared.swept } }, none⟩

def step (cfg : Config) (m : Locked) : Move → Option Locked
  | .relay label =>
      if label.Evicting ∨ m.task.isSome ∧ label.takesMutex cfg m.sys then none
      else (m.sys.step cfg label).map fun sys => ⟨sys, m.task⟩
  | .glance _ => if m.holderAwaits.isSome then none else some m
  | .expire now =>
      if cfg.tunnelMaxAge = 0 ∨ m.holderAwaits.isSome then none
      else some ⟨m.sys, some (.expiry
        (m.sys.shared.tunnels.entries.filter fun e => Shared.isExpired cfg now e.2))⟩
  | .terminate =>
      if m.holderAwaits.isSome then none
      else some ⟨m.sys, some (.sigterm (KeyedTable.values m.sys.shared.tunnels))⟩
  | .resume => m.task.map m.resume

end Locked

/-- The task that holds the mutex does not wait for a stream of a client. -/
def NoClientWait (m : Locked) : Prop := ∀ i, m.holderAwaits ≠ some (.clientStream i)

/-- No HTTP registration tries to insert a name that is taken. -/
def NoTakenInsert (m : Locked) : Move → Prop
  | .relay (.handler i _) => ∀ h ∈ m.sys.handlers[i]?, ∀ entry ∈ h.pc.pending,
      m.sys.shared.holder entry.subdomain = none
  | _ => True

instance : ∀ (m : Locked) (move : Move), Decidable (NoTakenInsert m move)
  | m, .relay (.handler i _) =>
      inferInstanceAs (Decidable (∀ h ∈ m.sys.handlers[i]?, ∀ entry ∈ h.pc.pending,
        m.sys.shared.holder entry.subdomain = none))
  | _, .relay (.connect _) | _, .relay (.sweep _) | _, .relay .shutdown
  | _, .relay (.reloadAuth _) | _, .relay (.reloadBlocklist _) | _, .relay (.reloadDenylist _)
  | _, .relay (.disconnectTunnel _) | _, .relay (.bulkDisconnect _)
  | _, .relay (.setCustomDomain _ _) | _, .relay (.removeCustomDomain _)
  | _, .relay (.adminStep _) | _, .relay (.lookupDomain _) | _, .relay (.routeDomain _)
  | _, .glance _ | _, .expire _ | _, .terminate | _, .resume => .isTrue trivial

section Uninterrupted

variable {cfg : Config} {sys sys' : System}

theorem exec_expiry (expired : List (Sigma fun _ : String => TunnelEntry)) (sys : System) :
    exec (Locked.step cfg) ⟨sys, some (.expiry expired)⟩
        (List.replicate (expired.length + 1) .resume) =
      some ⟨{ sys with
        shared := expired.foldl (fun sh e => sh.evict e.1 e.2) sys.shared }, none⟩ := by
  induction expired generalizing sys with
  | nil => rfl
  | cons x expired ih =>
      rw [List.length_cons, List.replicate_succ]
      simp only [exec, Locked.step, Option.map_some, Option.bind_some, Locked.resume]
      exact ih _

theorem exec_sigterm (entries : List TunnelEntry) (sys : System) :
    exec (Locked.step cfg) ⟨sys, some (.sigterm entries)⟩
        (List.replicate (entries.length + 1) .resume) =
      some ⟨{ sys with shared := { sys.shared.shutdown with
        signalled := (entries.map TunnelEntry.mux).reverse ++ sys.shared.signalled } },
        none⟩ := by
  induction entries generalizing sys with
  | nil => rfl
  | cons entry entries ih =>
      rw [List.length_cons, List.replicate_succ]
      simp only [exec, Locked.step, Option.map_some, Option.bind_some, Locked.resume]
      rw [ih]
      simp [Shared.shutdown, Shared.signal]

theorem exec_sweep {now : Int} (hstep : sys.step cfg (.sweep now) = some sys') :
    ∃ n, exec (Locked.step cfg) ⟨sys, none⟩ (.expire now :: List.replicate n .resume) =
      some ⟨sys', none⟩ := by
  have hfree : ¬ (cfg.tunnelMaxAge = 0 ∨ sys.shared.lock.isSome) := by
    intro hblocked
    simp only [System.step, if_pos hblocked] at hstep
    cases hstep
  have hawaits : (Locked.mk sys none).holderAwaits = none := by
    have hlock : sys.shared.lock = none := by simpa using (not_or.mp hfree).2
    simp [Locked.holderAwaits, hlock]
  obtain rfl := System.sweep_cases hstep
  refine ⟨(sys.shared.tunnels.entries.filter fun e =>
    Shared.isExpired cfg now e.2).length + 1, ?_⟩
  simp only [exec, Locked.step, hawaits, Option.isSome_none, Bool.false_eq_true, or_false,
    if_neg (not_or.mp hfree).1, Option.bind_some]
  exact exec_expiry _ sys

end Uninterrupted

section Exact

variable {cfg : Config} {m m' : Locked} {move : Move}

theorem Background.awaits_ne (task : Background) (i : MuxId) : task.awaits ≠ .clientStream i := by
  unfold Background.awaits
  split <;> exact nofun

theorem noClientWait_iff : NoClientWait m ↔ m.sys.shared.lock = none := by
  unfold NoClientWait Locked.holderAwaits
  constructor
  · intro hwait
    cases hlock : m.sys.shared.lock with
    | none => rfl
    | some i =>
        rw [hlock] at hwait
        exact absurd rfl (hwait i)
  · intro hlock i hawaits
    rw [hlock] at hawaits
    obtain ⟨task, -, htask⟩ := Option.map_eq_some_iff.mp hawaits
    exact task.awaits_ne i htask

theorem HandlerStep.lock_of_pending {i : MuxId} {sh sh' : Shared} {h h' : Handler}
    {input : Input} (hstep : HandlerStep cfg i sh h input h' sh') (hpc : h.pc.pending = none)
    (hlock : sh.lock = none) : sh'.lock = none := by
  cases hstep with
  | taken hat =>
      rw [hat] at hpc
      cases hpc
  | takenReply => rfl
  | @announceFailed _ endpoint => cases endpoint <;> exact hlock
  | _ => exact hlock

theorem System.lock_of_not_handler {s s' : System} {label : Label}
    (hlabel : ∀ i input, label ≠ .handler i input) (hstep : s.step cfg label = some s') :
    s'.shared.lock = s.shared.lock := by
  cases System.step_cases hstep with
  | connected client => rfl
  | handled => exact absurd rfl (hlabel _ _)
  | evicted _ hevict => exact hevict.lock
  | quiet hquiet => exact hquiet.lock

theorem System.lock_of_handler {s s' : System} {i : MuxId} {input : Input}
    (hs : s.shared.lock = none) (hstep : s.step cfg (.handler i input) = some s') :
    s'.shared.lock = none ↔ ∀ h ∈ s.handlers[i]?, ∀ entry ∈ h.pc.pending,
      s.shared.holder entry.subdomain = none := by
  obtain ⟨h, h', sh', hget, hhandler, heq⟩ := System.handler_cases hstep
  cases hpending : h.pc.pending with
  | none =>
      subst heq
      refine iff_of_true (hhandler.lock_of_pending hpending hs) ?_
      intro g hg entry hentry
      obtain rfl : h = g := Option.some.inj (hget.symm.trans hg)
      rw [hpending] at hentry
      cases hentry
  | some entry =>
      rcases System.step_httpInsert hget (Pc.eq_of_pending hpending) hstep with
        ⟨htaken, rfl⟩ | ⟨hfree, rfl⟩
      · refine iff_of_false (by simp) ?_
        intro hall
        have hnone := Shared.holder_eq_none.mp (hall h hget entry hpending)
        rw [hnone] at htaken
        cases htaken
      · refine iff_of_true hs ?_
        intro g hg entry' hentry'
        obtain rfl : h = g := Option.some.inj (hget.symm.trans hg)
        obtain rfl : entry = entry' := Option.some.inj (hpending.symm.trans hentry')
        exact Shared.holder_eq_none.mpr hfree

theorem Locked.resume_lock (m : Locked) (task : Background) :
    (m.resume task).sys.shared.lock = m.sys.shared.lock := by
  unfold Locked.resume
  split <;> rfl

theorem noClientWait_step (hm : NoClientWait m) (hstep : m.step cfg move = some m') :
    NoClientWait m' ↔ NoTakenInsert m move := by
  rw [noClientWait_iff] at hm ⊢
  cases move with
  | relay label =>
      simp only [Locked.step] at hstep
      split at hstep
      · cases hstep
      · obtain ⟨sys, hrelay, rfl⟩ := Option.map_eq_some_iff.mp hstep
        by_cases hhandler : ∃ i input, label = .handler i input
        · obtain ⟨i, input, rfl⟩ := hhandler
          exact System.lock_of_handler hm hrelay
        · have hlock := System.lock_of_not_handler
            (fun i input heq => hhandler ⟨i, input, heq⟩) hrelay
          refine iff_of_true (hlock.trans hm) ?_
          cases label with
          | handler i input => exact absurd ⟨i, input, rfl⟩ hhandler
          | _ => trivial
  | glance site =>
      simp only [Locked.step] at hstep
      split at hstep <;> cases hstep
      exact iff_of_true hm trivial
  | expire now =>
      simp only [Locked.step] at hstep
      split at hstep <;> cases hstep
      exact iff_of_true hm trivial
  | terminate =>
      simp only [Locked.step] at hstep
      split at hstep <;> cases hstep
      exact iff_of_true hm trivial
  | resume =>
      obtain ⟨task, -, rfl⟩ := Option.map_eq_some_iff.mp hstep
      exact iff_of_true ((m.resume_lock task).trans hm) trivial

/-- A holder that waits for no client gives the mutex back by its own moves. -/
theorem mutex_released (hm : NoClientWait m) :
    ∃ n m', exec (Locked.step cfg) m (List.replicate n .resume) = some m' ∧
      m'.holderAwaits = none := by
  have hlock := noClientWait_iff.mp hm
  obtain ⟨sys, task⟩ := m
  change sys.shared.lock = none at hlock
  cases task with
  | none => exact ⟨0, _, rfl, by simp [Locked.holderAwaits, hlock]⟩
  | some task =>
      cases task with
      | expiry expired =>
          refine ⟨_, _, exec_expiry expired sys, ?_⟩
          have hevict : ∀ (expired : List (Sigma fun _ : String => TunnelEntry)) (sh : Shared),
              (expired.foldl (fun sh e => sh.evict e.1 e.2) sh).lock = sh.lock := by
            intro expired
            induction expired with
            | nil => exact fun _ => rfl
            | cons x expired ih => exact fun sh => ih _
          simp only [Locked.holderAwaits, hevict]
          rw [hlock]
          rfl
      | sigterm entries =>
          refine ⟨_, _, exec_sigterm entries sys, ?_⟩
          simp only [Locked.holderAwaits, Shared.shutdown]
          rw [hlock]
          rfl

end Exact

/-- The mutex is never held over a wait for a client, and is always given back by its
holder alone, exactly in the runs in which no HTTP registration finds its name
taken. -/
theorem lock_never_waits_for_client {cfg : Config} {lists : Lists} {moves : List Move}
    {m : Locked} (hrun : FreeRun (Locked.step cfg) (Locked.initial lists) moves m) :
    HoldsAlong (Locked.step cfg)
        (fun m => NoClientWait m ∧ ∃ n m',
          exec (Locked.step cfg) m (List.replicate n .resume) = some m' ∧
          m'.holderAwaits = none)
        (Locked.initial lists) moves ↔
      Run (Locked.step cfg) NoTakenInsert (Locked.initial lists) moves m := by
  refine hrun.holdsAlong_iff (I := fun _ => True) trivial (fun _ _ _ _ _ => trivial) ?_ ?_
  · have hstart : NoClientWait (Locked.initial lists) := noClientWait_iff.mpr rfl
    exact ⟨hstart, mutex_released hstart⟩
  · rintro t a u - ⟨ht, -⟩ hstep
    rw [← noClientWait_step ht hstep]
    exact ⟨fun hu => hu.1, fun hu => ⟨hu, mutex_released hu⟩⟩

/-- A tunnel is registered and expires; the expiry task holds the mutex meanwhile. -/
def sweptByHand : List Move :=
  (Label.connect documentationIp :: httpRegistration 0 "app" 0 ++
    [Label.handler 0 (.wrote none)]).map .relay ++
    [.glance .healthCheck, .expire 3600, .resume]

theorem lock_never_waits_sweptByHand :
    ∃ m, FreeRun (Locked.step hourlyExpiry) (Locked.initial .disabled) sweptByHand m ∧
      m.holderAwaits = some .nothing ∧
      HoldsAlong (Locked.step hourlyExpiry)
        (fun m => NoClientWait m ∧ ∃ n m',
          exec (Locked.step hourlyExpiry) m (List.replicate n .resume) = some m' ∧
          m'.holderAwaits = none)
        (Locked.initial .disabled) sweptByHand := by
  have hexec : (execGuarded (Locked.step hourlyExpiry) NoTakenInsert
      (Locked.initial .disabled) sweptByHand).map Locked.holderAwaits = some (some .nothing) := by
    decide +kernel
  obtain ⟨m, hrun, hawaits⟩ := exists_run hexec
  exact ⟨m, hrun.free, hawaits, (lock_never_waits_for_client hrun.free).mpr hrun⟩

/-- While the second client does not read its 409 reply, the mutex stays taken. -/
theorem not_lock_never_waits_contended :
    ¬ ∀ (cfg : Config) (lists : Lists) (moves : List Move) (m : Locked),
      FreeRun (Locked.step cfg) (Locked.initial lists) moves m → NoClientWait m := by
  intro hall
  have hexec : (exec (Locked.step (.unlimited "relay.test")) (Locked.initial .disabled)
      ((contended ++ [Label.handler 1 .proceed]).map .relay)).map Locked.holderAwaits =
        some (some (.clientStream 1)) := by
    decide +kernel
  obtain ⟨m, hrun, hawaits⟩ := exists_freeRun hexec
  exact hall _ _ _ m hrun 1 hawaits

end Seamless.Relay
