import Seamless.Relay.ControlStream
import Seamless.Relay.Service

/-!
What the audit log and the webhooks say about a tunnel: one opening, when its client has
been told the URL, and one closing, when its call has returned.
-/

namespace Seamless.Relay

open Seamless.Common
open Seamless.Library
open Seamless.Library.ByteStream
open Seamless.Library.NetAddr
open Seamless.Library.TransitionSystem

/-- The reports about the opening and the closing of a tunnel. -/
def Notice.isLifecycle : Notice → Bool
  | .audit (.tunnelOpen _ _ _) | .audit (.tunnelClose _ _ _ _)
  | .audit (.tunnelKeepaliveTimeout _ _ _) | .webhook _ => true
  | _ => false

/-- The tunnel that a call has announced and whose closing it has not yet reported. -/
def Pc.reportedOpen : Pc → Option Endpoint
  | .tcpInsertEntry port => some (.tcp port)
  | .looping endpoint => some endpoint
  | .tcpShutdown port => some (.tcp port)
  | .tcpRemovePort port => some (.tcp port)
  | .cleaning endpoint => some endpoint
  | _ => none

def Pc.announceFailed : Pc → Prop
  | .returned (.error (.announce _ _)) => True
  | _ => False

/-- The whole `Registered` reply is on the control stream. -/
def Handler.Told (h : Handler) (url : String) : Prop :=
  frameBytes (.registered url) <+: h.control

/-- What has been reported of the tunnel of a call, and what its client has been told. -/
inductive Handler.Narrated (cfg : Config) (keepalive : UInt64) (h : Handler) :
    List Notice → Prop
  | silent (hopen : h.pc.reportedOpen = none) (hreturned : h.pc ≠ .returned (.ok ()))
      (huntold : h.pc.announceFailed ∨ ∀ url, ¬ h.Told url) : Narrated cfg keepalive h []
  | opened {endpoint : Endpoint} (hopen : h.pc.reportedOpen = some endpoint)
      (htold : h.Told (endpoint.url cfg)) :
      Narrated cfg keepalive h (reportOpened cfg endpoint h.clientIp)
  | closed {endpoint : Endpoint} {timedOut : Bool} {usage : Usage}
      (hreturned : h.pc = .returned (.ok ())) (htold : h.Told (endpoint.url cfg))
      (htimeout : timedOut = true → keepalive ≠ 0) :
      Narrated cfg keepalive h (reportOpened cfg endpoint h.clientIp ++
        reportClosed cfg endpoint h.clientIp timedOut usage)

@[simp] theorem Endpoint.reportedOpen_exit (e : Endpoint) : e.exit.reportedOpen = some e := by
  cases e <;> rfl

@[simp] theorem Endpoint.reportedOpen_announced (e : Endpoint) :
    e.announced.reportedOpen = some e := by
  cases e <;> rfl

theorem Pc.Early.reportedOpen {pc : Pc} (h : pc.Early) : pc.reportedOpen = none := by
  cases pc <;> first | rfl | exact h.elim

theorem Pc.Searching.reportedOpen {pc : Pc} (h : pc.Searching) : pc.reportedOpen = none := by
  cases pc <;> first | rfl | exact h.elim

theorem Pc.Mute.reportedOpen {pc : Pc} (h : pc.Mute) : pc.reportedOpen = none := by
  cases pc <;> first | rfl | exact h.elim

section Lifecycle

variable (cfg : Config) (sh : Shared) (h : Handler) (l : CallLocals) (m : Moment) (input : Input)

theorem isLifecycle_reportOpened (e : Endpoint) (clientIp : String) :
    (reportOpened cfg e clientIp).filter Notice.isLifecycle = reportOpened cfg e clientIp := rfl

theorem isLifecycle_reportClosed (e : Endpoint) (clientIp : String) (timedOut : Bool)
    (usage : Usage) : (reportClosed cfg e clientIp timedOut usage).filter Notice.isLifecycle =
      reportClosed cfg e clientIp timedOut usage := by
  cases timedOut <;> rfl

theorem isLifecycle_reportRegister (lists : Lists) (clientIp : String) (read : RegisterRead) :
    (reportRegister cfg lists clientIp m read).filter Notice.isLifecycle = [] := by
  unfold reportRegister
  split
  · split
    · split
      · rfl
      · split <;> rfl
    · rfl
  · rfl

theorem lifecycle_report_eq_nil (hannouncing : ∀ e fault, input = .wrote fault →
      h.pc = .announcing e → (h.write fault (.registered (e.url cfg))).1 ≠ .ok ())
    (hcleaning : ∀ e, input = .proceed → h.pc ≠ .cleaning e) :
    (h.report cfg sh l m input).filter Notice.isLifecycle = [] := by
  cases input with
  | proceed =>
      simp only [Handler.report]
      split
      · split
        · split <;> rfl
        · rfl
      · split
        · rfl
        · split <;> rfl
      · split
        · rfl
        · split <;> rfl
      · rename_i e hpc
        exact absurd hpc (hcleaning e rfl)
      · rfl
  | received read =>
      simp only [Handler.report]
      split
      · exact isLifecycle_reportRegister cfg m _ _ _
      · rfl
  | instant now =>
      simp only [Handler.report]
      split
      · split <;> rfl
      · rfl
  | named random unixNow now =>
      simp only [Handler.report]
      split
      · split <;> rfl
      · rfl
  | wrote fault =>
      simp only [Handler.report]
      split
      · rename_i e hpc
        split
        · rename_i hwrite
          exact absurd hwrite (hannouncing e fault rfl hpc)
        · rfl
      · rfl
  | picked port => rfl
  | bound ok => rfl
  | clocks unixNow now => rfl
  | disconnected => rfl
  | ticked fault => rfl
  | drained n => rfl

end Lifecycle

theorem not_told_of_silence {h : Handler} (hcontrol : h.control = []) (url : String) :
    ¬ h.Told url := by
  intro htold
  have hlength := htold.length_le
  rw [hcontrol, length_frameBytes, List.length_nil] at hlength
  omega

theorem not_told_of_refusal {h : Handler} {reply : ControlFrame} (hreply : IsRefusal reply)
    (hfits : FrameFits reply) (hcontrol : h.control <+: frameBytes reply) (url : String) :
    ¬ h.Told url := by
  intro htold
  have hwhole : frameBytes (.registered url) <+: frameBytes reply := htold.trans hcontrol
  have hshorter : FrameFits (.registered url) := by
    have hlength := hwhole.length_le
    simp only [length_frameBytes] at hlength
    unfold FrameFits at hfits ⊢
    omega
  have hsent : (Source.ofList (ε := IoErrorKind) (frameBytes (.registered url))).content =
      frameBytes (.registered url) ++ [] := by
    simp
  have hread : (readFrame (Source.ofList (frameBytes (.registered url)))).1 =
      .ok (.registered url) :=
    (readFrame_frameBytes hshorter hsent).1
  have hcontent : (Source.ofList (ε := IoErrorKind) (frameBytes (.registered url))).content <+:
      frameBytes reply ++ [] := by
    simpa using hwhole
  rw [← readFrame_of_prefix hfits hcontent hread] at hreply
  exact hreply

namespace Handler.Narrated

variable {cfg : Config} {keepalive : UInt64} {i : MuxId} {sh sh' : Shared} {h h' : Handler}
  {l : CallLocals} {m : Moment} {input : Input} {notices : List Notice} {pc : Pc}

theorem of_mute (hcontrol : h.control = []) (hpc : h.pc.reportedOpen = none)
    (hreturned : h.pc ≠ .returned (.ok ())) : h.Narrated cfg keepalive [] :=
  .silent hpc hreturned (.inr (not_told_of_silence hcontrol))

theorem nothing (hs : h.Narrated cfg keepalive notices) (hopen : h.pc.reportedOpen = none)
    (hreturned : h.pc.isReturned = false) : notices = [] := by
  cases hs with
  | silent => rfl
  | opened hsome => simp [hopen] at hsome
  | closed hpc => simp [hpc, Pc.isReturned] at hreturned

theorem something (hs : h.Narrated cfg keepalive notices) {endpoint : Endpoint}
    (hopen : h.pc.reportedOpen = some endpoint) :
    notices = reportOpened cfg endpoint h.clientIp ∧ h.Told (endpoint.url cfg) := by
  cases hs with
  | silent hnone => simp [hopen] at hnone
  | opened hsome htold =>
      obtain rfl := Option.some.inj (hopen.symm.trans hsome)
      exact ⟨rfl, htold⟩
  | closed hpc => simp [hpc, Pc.reportedOpen] at hopen

theorem refused {fault : Fault} {reply : ControlFrame} (hcontrol : h.control = [])
    (hreply : IsRefusal reply) :
    ((h.write fault reply).2.goto (.returned (.error (.refused reply)))).Narrated cfg
      keepalive [] := by
  refine .silent rfl (by simp) (.inr ?_)
  have hfirst : (h.write fault reply).2.control = [] ∨
      (FrameFits reply ∧ (h.write fault reply).2.control <+: frameBytes reply) :=
    Handler.Replied.write_first hcontrol reply
  rcases hfirst with hnothing | ⟨hfits, hwritten⟩
  · exact not_told_of_silence hnothing
  · exact not_told_of_refusal hreply hfits hwritten

theorem told_write {fault : Fault} {url : String} (htold : h.Told url) (frame : ControlFrame) :
    (h.write fault frame).2.Told url := by
  obtain ⟨accepted, -, hwritten, -⟩ := writeFrame_spec ⟨h.control, fault⟩ frame
  have hcontrol : (h.write fault frame).2.control = h.control ++ accepted := hwritten
  rw [Told, hcontrol]
  exact List.IsPrefix.trans htold (List.prefix_append _ _)

theorem told_announced {fault : Fault} {url : String} (hcontrol : h.control = [])
    (hwrite : (h.write fault (.registered url)).1 = .ok ()) :
    (h.write fault (.registered url)).2.Told url := by
  obtain ⟨accepted, -, hwritten, hall⟩ := writeFrame_spec ⟨h.control, fault⟩ (.registered url)
  obtain ⟨rfl, -⟩ := hall hwrite
  have hbytes : (h.write fault (.registered url)).2.control =
      h.control ++ frameBytes (.registered url) := hwritten
  rw [Told, hbytes, hcontrol, List.nil_append]

theorem quiet (hs : h.Narrated cfg keepalive notices) (hspoken : h.Spoken) (hpc : h.pc.Mute)
    (hcontrol : h'.control = h.control) (hopen : h'.pc.reportedOpen = none)
    (hreturned : h'.pc ≠ .returned (.ok ())) : h'.Narrated cfg keepalive notices := by
  have hrunning : h.pc.isReturned = false := by
    cases hreturned : h.pc <;> first | rfl | simp [hreturned, Pc.Mute] at hpc
  obtain rfl := hs.nothing hpc.reportedOpen hrunning
  exact of_mute (hcontrol.trans (hspoken.mute hpc)) hopen hreturned

theorem still {endpoint : Endpoint} (hs : h.Narrated cfg keepalive notices)
    (hopen : h.pc.reportedOpen = some endpoint) (hopen' : h'.pc.reportedOpen = some endpoint)
    (hclient : h'.client = h.client) (htold : h.Told (endpoint.url cfg) → h'.Told (endpoint.url cfg)) :
    h'.Narrated cfg keepalive notices := by
  obtain ⟨rfl, hurl⟩ := hs.something hopen
  have hip : h.clientIp = h'.clientIp := by rw [clientIp, clientIp, hclient]
  rw [hip]
  exact .opened hopen' (htold hurl)

theorem between (hs : h.Narrated cfg keepalive notices) (hspoken : h.Spoken)
    (hstep : HandlerStep cfg i sh h input h' sh')
    (hannouncing : ∀ e fault, input = .wrote fault → h.pc = .announcing e →
      (h.write fault (.registered (e.url cfg))).1 ≠ .ok ())
    (hcleaning : ∀ e, h.pc ≠ .cleaning e) : h'.Narrated cfg keepalive notices := by
  cases hstep with
  | giveUp hpc he =>
      exact hs.quiet hspoken (hpc.elim (·.mute) (·.mute)) rfl rfl (by simp)
  | advance _ hpc hpc' =>
      refine hs.quiet hspoken hpc.mute rfl hpc'.reportedOpen ?_
      rintro heq
      exact (heq ▸ hpc' : Pc.Early (.returned (.ok ())))
  | pass hpc => exact hs.quiet hspoken (by simp [hpc, Pc.Mute]) rfl rfl (by simp)
  | refuse _ hpc =>
      have hmute : h.pc.Mute := by
        rcases hpc with hpc | ⟨sub, hpc⟩
        · exact hpc.mute
        · simp [hpc, Pc.Mute]
      exact hs.quiet hspoken hmute rfl rfl (by simp)
  | refused hpc =>
      have hmute : h.pc.Mute := by simp [hpc, Pc.Mute]
      obtain rfl := hs.nothing hmute.reportedOpen (by simp [hpc, Pc.isReturned])
      exact refused (hspoken.mute hmute) (hspoken.refusal _ (by rw [hpc]; rfl))
  | named hpc => exact hs.quiet hspoken (by simp [hpc, Pc.Mute]) rfl rfl (by simp)
  | taken hpc => exact hs.quiet hspoken (by simp [hpc, Pc.Mute]) rfl rfl (by simp)
  | takenReply hpc =>
      have hmute : h.pc.Mute := by simp [hpc, Pc.Mute]
      obtain rfl := hs.nothing hmute.reportedOpen (by simp [hpc, Pc.isReturned])
      exact refused (hspoken.mute hmute) (hspoken.refusal _ (by rw [hpc]; rfl))
  | inserted hpc => exact hs.quiet hspoken (by simp [hpc, Pc.Mute]) rfl rfl (by simp)
  | search hpc hpc' =>
      refine hs.quiet hspoken hpc.mute rfl hpc'.reportedOpen ?_
      rintro heq
      exact (heq ▸ hpc' : Pc.Searching (.returned (.ok ())))
  | bound hpc => exact hs.quiet hspoken (Pc.mute_of_binding hpc) rfl rfl (by simp)
  | portInserted hpc => exact hs.quiet hspoken (by simp [hpc, Pc.Mute]) rfl rfl (by simp)
  | announced hpc hwrite => exact absurd hwrite (hannouncing _ _ rfl hpc)
  | announceFailed hpc hwrite =>
      obtain rfl := hs.nothing (by simp [hpc, Pc.reportedOpen]) (by simp [hpc, Pc.isReturned])
      exact .silent rfl (by simp) (.inl trivial)
  | entryInserted hpc => exact hs.still (by rw [hpc]; rfl) rfl rfl id
  | pinged hpc =>
      refine hs.still (by rw [hpc]; rfl) (by rw [write_pc, hpc]; rfl) rfl ?_
      exact fun htold => told_write htold .ping
  | drained => exact hs
  | left hpc => exact hs.still (by rw [hpc]; rfl) (by simp) rfl id
  | pingFailed hpc =>
      refine hs.still (by rw [hpc]; rfl) (by simp) rfl ?_
      exact fun htold => told_write htold .ping
  | listenerDropped hpc => exact hs.still (by rw [hpc]; rfl) rfl rfl id
  | portRemoved hpc => exact hs.still (by rw [hpc]; rfl) rfl rfl id
  | cleaned hpc => exact absurd hpc (hcleaning _)

theorem step (hs : h.Narrated cfg keepalive notices) (hspoken : h.Spoken)
    (htimeout : l.keepaliveTimeout = true → keepalive ≠ 0)
    (hstep : h.step cfg i sh input = some (h', sh')) :
    h'.Narrated cfg keepalive
      (notices ++ (h.report cfg sh l m input).filter Notice.isLifecycle) := by
  by_cases hannouncing : ∃ e fault, input = .wrote fault ∧ h.pc = .announcing e ∧
      (h.write fault (.registered (e.url cfg))).1 = .ok ()
  · obtain ⟨e, fault, rfl, hpc, hwrite⟩ := hannouncing
    have hmute : h.pc.Mute := by simp [hpc, Pc.Mute]
    obtain rfl := hs.nothing hmute.reportedOpen (by simp [hpc, Pc.isReturned])
    have htold := told_announced (hspoken.mute hmute) hwrite
    rcases hresult : h.write fault (.registered (e.url cfg)) with ⟨outcome, w⟩
    rw [hresult] at hwrite htold
    subst hwrite
    simp only [Handler.step, hpc, hresult, Option.some.injEq, Prod.mk.injEq] at hstep
    obtain ⟨rfl, rfl⟩ := hstep
    have hclient : w.client = h.client := by rw [← write_client h fault, hresult]
    have hip : h.clientIp = (w.goto e.announced).clientIp := by
      rw [clientIp, clientIp, goto_client, hclient]
    simp only [report, hpc, hresult, List.nil_append, isLifecycle_reportOpened]
    rw [hip]
    exact .opened (by simp) htold
  · by_cases hcleaning : ∃ e, h.pc = .cleaning e
    · obtain ⟨e, hpc⟩ := hcleaning
      obtain ⟨rfl, htold⟩ := hs.something (show h.pc.reportedOpen = some e by rw [hpc]; rfl)
      cases input with
      | proceed =>
          simp only [Handler.step, hpc] at hstep
          split at hstep
          · cases hstep
          · cases hstep
            simp only [report, hpc, isLifecycle_reportClosed]
            exact .closed rfl htold htimeout
      | _ => simp [Handler.step, hpc] at hstep
    · have hnil : (h.report cfg sh l m input).filter Notice.isLifecycle = [] :=
        lifecycle_report_eq_nil cfg sh h l m input
          (fun e fault hinput hpc hwrite => hannouncing ⟨e, fault, hinput, hpc, hwrite⟩)
          (fun e _ hpc => hcleaning ⟨e, hpc⟩)
      rw [hnil, List.append_nil]
      exact hs.between hspoken (Handler.step_cases hstep)
        (fun e fault hinput hpc hwrite => hannouncing ⟨e, fault, hinput, hpc, hwrite⟩)
        (fun e hpc => hcleaning ⟨e, hpc⟩)

end Handler.Narrated

theorem Handler.nextLocals_timeout {keepalive : UInt64} (cfg : Config) (h : Handler)
    (l : CallLocals) (m : Moment) (input : Input)
    (hs : l.keepaliveTimeout = true → keepalive ≠ 0) :
    (h.nextLocals keepalive cfg l m input).keepaliveTimeout = true → keepalive ≠ 0 := by
  cases input with
  | wrote fault =>
      simp only [Handler.nextLocals]
      split
      · split <;> exact hs
      · exact hs
  | ticked fault =>
      simp only [Handler.nextLocals]
      split
      · split
        · exact hs
        · simp
      · exact hs
  | _ => exact hs

/-- What is known of every call of a run. -/
structure Accounted (cfg : ServiceConfig) (h : Handler) (l : CallLocals) (notices : List Notice) :
    Prop where
  spoken : h.Spoken
  timeout : l.keepaliveTimeout = true → cfg.tunnelKeepalive ≠ 0
  narrated : h.Narrated cfg.relay cfg.tunnelKeepalive (notices.filter Notice.isLifecycle)

theorem accounted_served {cfg : ServiceConfig} {guard : Service → Happening → Prop}
    {lists : Lists} {cfgs : List TcpPassthroughConfig} {happenings : List Happening} {s : Service}
    (hrun : Served cfg guard lists cfgs happenings s) : s.EachCall fun _ => Accounted cfg := by
  refine Service.eachCall_served hrun ?_ ?_
  · intro i client
    exact ⟨spoken_accepted client, by simp [CallLocals.start], .of_mute rfl rfl (by simp [Handler.accepted])⟩
  · intro i sh h input h' sh' l m notices hstep hs
    refine ⟨(Handler.step_cases hstep).spoken hs.spoken,
      h.nextLocals_timeout cfg.relay l m input hs.timeout, ?_⟩
    rw [List.filter_append]
    exact hs.narrated.step hs.spoken hs.timeout hstep

theorem Handler.Narrated.opening_iff {cfg : Config} {keepalive : UInt64} {h : Handler}
    {notices : List Notice} (hs : h.Narrated cfg keepalive (notices.filter Notice.isLifecycle)) :
    (∃ e url clientIp, Notice.audit (.tunnelOpen e url clientIp) ∈ notices) ↔
      (∃ url, h.Told url) ∧ ¬ h.pc.announceFailed := by
  have hfilter : (∃ e url clientIp, Notice.audit (.tunnelOpen e url clientIp) ∈ notices) ↔
      ∃ e url clientIp, Notice.audit (.tunnelOpen e url clientIp) ∈
        notices.filter Notice.isLifecycle := by
    simp [List.mem_filter, Notice.isLifecycle]
  rw [hfilter]
  generalize notices.filter Notice.isLifecycle = reported at hs ⊢
  cases hs with
  | silent hopen hreturned huntold =>
      constructor
      · simp
      · rintro ⟨⟨url, htold⟩, hfailed⟩
        rcases huntold with hfails | hnever
        · exact absurd hfails hfailed
        · exact absurd htold (hnever url)
  | @opened endpoint hopen htold =>
      constructor
      · intro _
        refine ⟨⟨_, htold⟩, ?_⟩
        intro hfailed
        cases hpc : h.pc <;> simp [hpc, Pc.announceFailed, Pc.reportedOpen] at hfailed hopen
      · intro _
        exact ⟨endpoint, _, _, List.mem_cons_self⟩
  | @closed endpoint _ _ hreturned htold =>
      constructor
      · intro _
        refine ⟨⟨_, htold⟩, ?_⟩
        simp [hreturned, Pc.announceFailed]
      · intro _
        exact ⟨endpoint, _, _, List.mem_cons_self⟩

/-- In every run the audit log and the webhooks tell of each call: nothing before its client
has been told a URL, then one opening with that URL, and one closing of the same tunnel once
the call has returned. -/
theorem lifecycle_reported (cfg : ServiceConfig) (lists : Lists)
    (cfgs : List TcpPassthroughConfig) (happenings : List Happening) (s : Service) (i : MuxId)
    (h : Handler) (hrun : FreeRun (Service.step cfg) (Service.initial lists cfgs) happenings s)
    (hget : s.system.handlers[i]? = some h) :
    h.Narrated cfg.relay cfg.tunnelKeepalive
        ((s.reportsOf (.call i)).filter Notice.isLifecycle) ∧
      ((∃ e url clientIp,
          Notice.audit (.tunnelOpen e url clientIp) ∈ s.reportsOf (.call i)) ↔
        (∃ url, h.Told url) ∧ ¬ h.pc.announceFailed) := by
  have hs := accounted_served hrun i h hget
  exact ⟨hs.narrated, hs.narrated.opening_iff⟩

def quietMoment (unixNow : Int) : Moment := ⟨unixNow, 3, 10, 20⟩

def openService : ServiceConfig := ⟨.unlimited "example.com", 25, ⟨none, id, []⟩⟩

/-- A TCP tunnel whose second ping is not answered in time. -/
def timedOutTunnel : List Happening :=
  (Label.connect documentationIp :: tcpRegistration 0 4000).map (.relay · (quietMoment 100)) ++
    ([.ticked none, .ticked (some (3, .other 110)), .proceed, .proceed, .proceed].map
      (Label.handler 0)).map (.relay · (quietMoment 160))

theorem lifecycle_reported_timedOut :
    ∃ s h, FreeRun (Service.step openService) (Service.initial .disabled []) timedOutTunnel s ∧
      s.system.handlers[0]? = some h ∧
      s.reportsOf (.call 0) =
        [.handshakeMs 3, .count .handshakes,
          .audit (.tunnelOpen (.tcp 4000) "tcp://example.com:4000" "192.0.2.1"),
          .webhook (.connect (.tcp 4000) "tcp://example.com:4000" "192.0.2.1"),
          .audit (.tunnelKeepaliveTimeout (.tcp 4000) "192.0.2.1" ⟨60, 10, 20⟩),
          .webhook (.disconnect (.tcp 4000) "tcp://example.com:4000" "192.0.2.1" 60)] ∧
      h.Narrated openService.relay openService.tunnelKeepalive
        ((s.reportsOf (.call 0)).filter Notice.isLifecycle) := by
  have hexec : (exec (Service.step openService) (Service.initial .disabled [])
      timedOutTunnel).map (fun s => (s.system.handlers.length, s.reportsOf (.call 0))) =
        some (1, [.handshakeMs 3, .count .handshakes,
          .audit (.tunnelOpen (.tcp 4000) "tcp://example.com:4000" "192.0.2.1"),
          .webhook (.connect (.tcp 4000) "tcp://example.com:4000" "192.0.2.1"),
          .audit (.tunnelKeepaliveTimeout (.tcp 4000) "192.0.2.1" ⟨60, 10, 20⟩),
          .webhook (.disconnect (.tcp 4000) "tcp://example.com:4000" "192.0.2.1" 60)]) := by
    decide +kernel
  obtain ⟨s, hrun, hstate⟩ := exists_freeRun hexec
  obtain ⟨hlength, hreports⟩ := Prod.mk.inj hstate
  have hget := List.getElem?_eq_getElem (show 0 < s.system.handlers.length by omega)
  exact ⟨s, _, hrun, hget, hreports, (lifecycle_reported _ _ _ _ _ _ _ hrun hget).1⟩

end Seamless.Relay
