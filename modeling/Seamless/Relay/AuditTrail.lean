import Seamless.Relay.AuditReadBack
import Seamless.Relay.Lifecycle

/-!
The relay together with its audit log: what a file of the log says of calls and accept loops
did happen in one of the processes that wrote to it.
-/

namespace Seamless.Relay

open Seamless.Common
open Seamless.Library
open Seamless.Library.NetAddr
open Seamless.Library.Text
open Seamless.Library.TransitionSystem

/-- A process of the relay, with the options that it was started with. -/
structure Process where
  cfg : ServiceConfig
  service : Service

/-- The current process, the log that it writes, and as history the processes before it, as
they were at their ends. -/
structure Trail where
  process : Process
  pipe : AuditPipe
  past : List Process

inductive TrailMove where
  | serve (a : Happening) (ts : Int)
  -- An event of a part of the relay that is not modelled here.
  | other (e : Emission)
  | receive
  | writeLine (secs : UInt64) (renameOk : Bool)
  | writeNewline
  | restart (cfg : ServiceConfig) (lists : Lists) (cfgs : List TcpPassthroughConfig)

def Notice.auditEntry : Notice → Option AuditEntry
  | .audit entry => some entry
  | .count _ | .handshakeMs _ | .webhook _ => none

def Emission.reportedEntry (e : Emission) : Option AuditEntry :=
  match e.event with
  | .reported entry => some entry
  | _ => none

def entriesOf (journal : List (Reporter × Notice)) : List AuditEntry :=
  journal.filterMap fun r => r.2.auditEntry

def AuditPipe.emitAll (p : AuditPipe) (ts : Int) (entries : List AuditEntry) : AuditPipe :=
  entries.foldl (fun p entry => p.emit ⟨ts, .reported entry⟩) p

namespace Trail

def initial (cfg : ServiceConfig) (lists : Lists) (cfgs : List TcpPassthroughConfig) : Trail :=
  ⟨⟨cfg, .initial lists cfgs⟩, .start, []⟩

/-- The events of a step are emitted as it is taken. -/
def served (t : Trail) (ts : Int) (service : Service) : Trail :=
  { t with
    process := { t.process with service := service }
    pipe := t.pipe.emitAll ts
      (entriesOf (service.journal.drop t.process.service.journal.length)) }

def step (format : AuditFormat) (base : String) (t : Trail) : TrailMove → Option Trail
  | .serve a ts => (t.process.service.step t.process.cfg a).map (t.served ts)
  | .other e => if e.reportedEntry.isNone then some { t with pipe := t.pipe.emit e } else none
  | .receive => t.pipe.receive.map fun pipe => { t with pipe := pipe }
  | .writeLine secs renameOk =>
      (t.pipe.writeLine format base secs renameOk).map fun pipe => { t with pipe := pipe }
  | .writeNewline => t.pipe.writeNewline.map fun pipe => { t with pipe := pipe }
  | .restart cfg lists cfgs =>
      some ⟨⟨cfg, .initial lists cfgs⟩, t.pipe.restart, t.past ++ [t.process]⟩

def processes (t : Trail) : List Process := t.past ++ [t.process]

end Trail

/-- What stands behind an event in the process that emitted it. -/
def Process.Backs (p : Process) : AuditEntry → Prop
  | .tunnelOpen endpoint url clientIp =>
      ∃ (i : MuxId) (h : Handler), p.service.system.handlers[i]? = some h ∧ h.clientIp = clientIp ∧
        url = endpoint.url p.cfg.relay ∧ h.Told url
  | .tunnelClose endpoint url clientIp _ =>
      ∃ (i : MuxId) (h : Handler), p.service.system.handlers[i]? = some h ∧ h.clientIp = clientIp ∧
        url = endpoint.url p.cfg.relay ∧ h.Told url ∧ h.pc = .returned (.ok ())
  | .tunnelKeepaliveTimeout endpoint clientIp _ =>
      ∃ (i : MuxId) (h : Handler), p.service.system.handlers[i]? = some h ∧ h.clientIp = clientIp ∧
        h.Told (endpoint.url p.cfg.relay) ∧ h.pc = .returned (.ok ()) ∧
        p.cfg.tunnelKeepalive ≠ 0
  | _ => True

/-! ### The journal -/

section Journal

variable {cfg : ServiceConfig} {s s' : Service} {a : Happening}

/-- Only a call tells of the opening or the closing of a tunnel. -/
def ToldByCalls (journal : List (Reporter × Notice)) : Prop :=
  ∀ r ∈ journal, r.2.isLifecycle = true → ∃ i, r.1 = .call i

theorem toldByCalls_call (i : MuxId) (notices : List Notice) :
    ToldByCalls (notices.map fun notice => (.call i, notice)) := by
  intro r hr _
  obtain ⟨notice, -, rfl⟩ := List.mem_map.mp hr
  exact ⟨i, rfl⟩

theorem toldByCalls_of_silent {who : Reporter} {notices : List Notice}
    (h : ∀ notice ∈ notices, notice.isLifecycle = false) :
    ToldByCalls (notices.map fun notice => (who, notice)) := by
  intro r hr htells
  obtain ⟨notice, hnotice, rfl⟩ := List.mem_map.mp hr
  rw [h notice hnotice] at htells
  cases htells

theorem ToldByCalls.append {journal more : List (Reporter × Notice)} (h : ToldByCalls journal)
    (hmore : ToldByCalls more) : ToldByCalls (journal ++ more) := by
  intro r hr
  rcases List.mem_append.mp hr with hold | hnew
  · exact h r hold
  · exact hmore r hnew

theorem isLifecycle_screen (pcfg : TcpPassthroughConfig) (lists : Lists) (geoip : GeoipFilter)
    (peer : SocketAddr) :
    ∀ notice ∈ (pcfg.screen lists geoip peer).2, notice.isLifecycle = false := by
  rw [TcpPassthroughConfig.screen_eq]
  split
  · simp [Notice.isLifecycle]
  · split
    · simp [Notice.isLifecycle]
    · simp

theorem Service.journal_step (hstep : s.step cfg a = some s') :
    ∃ more, s'.journal = s.journal ++ more ∧ ToldByCalls more := by
  have hnothing : s.journal = s.journal ++ [] := (List.append_nil _).symm
  have hnobody : ToldByCalls [] := fun _ hr => by cases hr
  cases Service.step_cases hstep with
  | @handled i input m h h' sh' hget hhandler =>
      refine ⟨_, ?_,
        toldByCalls_call i (h.report cfg.relay s.system.shared (s.locals i) m input)⟩
      rw [Service.handled, Service.report, Service.journal_askedBy]
  | connected => exact ⟨[], hnothing, hnobody⟩
  | aside => exact ⟨[], hnothing, hnobody⟩
  | screened => exact ⟨_, rfl, toldByCalls_of_silent (isLifecycle_screen _ _ _ _)⟩
  | @answered n now peer pcfg hget =>
      cases hallowed : (checkAndRecord cfg.relay s.system.shared.rates peer.ip.toString now).1 with
      | true => exact ⟨[], hnothing, hnobody⟩
      | false =>
          refine ⟨(pcfg.reportLimited peer).map fun notice => (.listener n, notice), rfl, ?_⟩
          apply toldByCalls_of_silent
          simp [TcpPassthroughConfig.reportLimited, Notice.isLifecycle]
  | started =>
      refine ⟨_, rfl, toldByCalls_of_silent ?_⟩
      simp [PassthroughConnection.connectEvent, Notice.isLifecycle]
  | finished =>
      refine ⟨_, rfl, toldByCalls_of_silent ?_⟩
      simp [PassthroughConnection.disconnectEvent, Notice.isLifecycle]

end Journal

/-- What is known of a process: it was started and has come to where it is. -/
structure Process.Reached (p : Process) : Prop where
  run : ∃ lists cfgs happenings,
    FreeRun (Service.step p.cfg) (Service.initial lists cfgs) happenings p.service
  told : ToldByCalls p.service.journal

theorem Process.reached_initial (cfg : ServiceConfig) (lists : Lists)
    (cfgs : List TcpPassthroughConfig) : (Process.mk cfg (.initial lists cfgs)).Reached where
  run := ⟨lists, cfgs, [], .nil⟩
  told := fun _ hr => by cases hr

theorem Process.Reached.step {p : Process} {a : Happening} {service : Service} (hp : p.Reached)
    (hstep : p.service.step p.cfg a = some service) :
    ({ p with service := service } : Process).Reached where
  run := by
    obtain ⟨lists, cfgs, happenings, hrun⟩ := hp.run
    exact ⟨lists, cfgs, _, hrun.snoc trivial hstep⟩
  told := by
    obtain ⟨more, hjournal, hmore⟩ := Service.journal_step hstep
    change ToldByCalls service.journal
    rw [hjournal]
    exact hp.told.append hmore

theorem Service.unborn_served {cfg : ServiceConfig} {guard : Service → Happening → Prop}
    {lists : Lists} {cfgs : List TcpPassthroughConfig} {happenings : List Happening} {s : Service}
    (hrun : Served cfg guard lists cfgs happenings s) : s.Unborn :=
  hrun.invariant (I := Service.Unborn) (fun _ _ => ⟨rfl, rfl⟩) fun _ _ _ hs _ hstep =>
    hs.step hstep

theorem Service.mem_reportsOf {s : Service} {who : Reporter} {notice : Notice} :
    notice ∈ s.reportsOf who ↔ (who, notice) ∈ s.journal := by
  rw [reportsOf, List.mem_map]
  constructor
  · rintro ⟨r, hr, rfl⟩
    obtain ⟨hmem, hwho⟩ := List.mem_filter.mp hr
    rwa [← of_decide_eq_true hwho]
  · intro hmem
    exact ⟨(who, notice), List.mem_filter.mpr ⟨hmem, decide_eq_true rfl⟩, rfl⟩

theorem Process.Reached.backs {p : Process} (hp : p.Reached) {who : Reporter}
    {entry : AuditEntry} (hmem : (who, Notice.audit entry) ∈ p.service.journal) :
    p.Backs entry := by
  by_cases htells : (Notice.audit entry).isLifecycle = true
  · obtain ⟨i, hwho⟩ := hp.told _ hmem htells
    obtain rfl : who = .call i := hwho
    obtain ⟨lists, cfgs, happenings, hrun⟩ := hp.run
    have hreport := Service.mem_reportsOf.mpr hmem
    have hborn : i < p.service.system.handlers.length := by
      by_contra hfuture
      obtain ⟨-, hnone⟩ := Service.unborn_served hrun i (Nat.le_of_not_lt hfuture)
      rw [hnone] at hreport
      cases hreport
    have hget := List.getElem?_eq_getElem hborn
    have hfilter := List.mem_filter.mpr ⟨hreport, htells⟩
    have hnarrated := (accounted_served hrun i _ hget).narrated
    generalize (p.service.reportsOf (.call i)).filter Notice.isLifecycle = reported at *
    cases hnarrated with
    | silent => cases hfilter
    | opened _ htold =>
        simp only [reportOpened, List.mem_cons, Notice.audit.injEq, List.not_mem_nil, or_false,
          reduceCtorEq] at hfilter
        subst hfilter
        exact ⟨i, _, hget, rfl, rfl, htold⟩
    | @closed endpoint timedOut usage hreturned htold htimeout =>
        simp only [reportOpened, reportClosed, List.cons_append, List.nil_append, List.mem_cons,
          Notice.audit.injEq, List.not_mem_nil, or_false, reduceCtorEq, false_or] at hfilter
        rcases hfilter with rfl | rfl
        · exact ⟨i, _, hget, rfl, rfl, htold⟩
        · cases timedOut with
          | true => exact ⟨i, _, hget, rfl, htold, hreturned, htimeout rfl⟩
          | false => exact ⟨i, _, hget, rfl, rfl, htold, hreturned⟩
  · cases entry <;> first | exact trivial | exact absurd rfl htells

/-! ### The emissions -/

namespace AuditPipe

theorem emitted_emit (p : AuditPipe) (e : Emission) : (p.emit e).emitted = p.emitted ++ [e] := by
  unfold emit
  split <;> rfl

theorem emitted_emitAll (p : AuditPipe) (ts : Int) (entries : List AuditEntry) :
    (p.emitAll ts entries).emitted =
      p.emitted ++ entries.map fun entry => ⟨ts, .reported entry⟩ := by
  induction entries generalizing p with
  | nil => exact (List.append_nil _).symm
  | cons entry entries ih =>
      refine (ih (p.emit ⟨ts, .reported entry⟩)).trans ?_
      rw [emitted_emit, List.append_assoc]
      rfl

variable {format : AuditFormat} {base : String} {p p' : AuditPipe} {move : PipeMove}

theorem emitted_of_step (hmove : ∀ e, move ≠ .emit e) (hstep : p.step format base move = some p') :
    p'.emitted = p.emitted := by
  cases step_cases hstep with
  | sent => exact absurd rfl (hmove _)
  | dropped => exact absurd rfl (hmove _)
  | received => rfl
  | lineWritten => rfl
  | newlineWritten => rfl
  | restarted => rfl

def Reached (format : AuditFormat) (base : String) (p : AuditPipe) : Prop :=
  ∃ moves, FreeRun (AuditPipe.step format base) .start moves p

theorem Reached.step (hp : p.Reached format base) (hstep : p.step format base move = some p') :
    p'.Reached format base := by
  obtain ⟨moves, hrun⟩ := hp
  exact ⟨_, hrun.snoc trivial hstep⟩

theorem Reached.emit (hp : p.Reached format base) (e : Emission) : (p.emit e).Reached format base :=
  hp.step (show p.step format base (.emit e) = some (p.emit e) from rfl)

theorem Reached.restart (hp : p.Reached format base) : p.restart.Reached format base :=
  hp.step (show p.step format base .restart = some p.restart from rfl)

theorem Reached.emitAll (hp : p.Reached format base) (ts : Int) (entries : List AuditEntry) :
    (p.emitAll ts entries).Reached format base := by
  induction entries generalizing p with
  | nil => exact hp
  | cons entry entries ih => exact ih (hp.emit ⟨ts, .reported entry⟩)

end AuditPipe

theorem entriesOf_append (journal more : List (Reporter × Notice)) :
    entriesOf (journal ++ more) = entriesOf journal ++ entriesOf more :=
  List.filterMap_append

/-- What is known of the relay and its log. -/
structure Trail.Kept (format : AuditFormat) (base : String) (t : Trail) : Prop where
  reached : ∀ p ∈ t.processes, p.Reached
  piped : t.pipe.Reached format base
  traced : t.pipe.emitted.filterMap Emission.reportedEntry =
    t.processes.flatMap fun p => entriesOf p.service.journal

namespace Trail

variable {format : AuditFormat} {base : String} {t t' : Trail}

theorem kept_initial (format : AuditFormat) (base : String) (cfg : ServiceConfig) (lists : Lists)
    (cfgs : List TcpPassthroughConfig) : (initial cfg lists cfgs).Kept format base where
  reached := by
    intro p hp
    rw [processes, initial, List.nil_append, List.mem_singleton] at hp
    subst hp
    exact Process.reached_initial cfg lists cfgs
  piped := ⟨[], .nil⟩
  traced := rfl

theorem Kept.written {pipe : AuditPipe} (ht : t.Kept format base) (move : PipeMove)
    (hmove : ∀ e, move ≠ .emit e) (hstep : t.pipe.step format base move = some pipe) :
    ({ t with pipe := pipe } : Trail).Kept format base where
  reached := ht.reached
  piped := ht.piped.step hstep
  traced := by
    change pipe.emitted.filterMap Emission.reportedEntry = _
    rw [AuditPipe.emitted_of_step hmove hstep]
    exact ht.traced

theorem Kept.served {a : Happening} {service : Service} (ht : t.Kept format base) (ts : Int)
    (hstep : t.process.service.step t.process.cfg a = some service) :
    (t.served ts service).Kept format base := by
  obtain ⟨more, hjournal, -⟩ := Service.journal_step hstep
  refine ⟨?_, ht.piped.emitAll _ _, ?_⟩
  · intro p hp
    rcases List.mem_append.mp hp with hold | hnew
    · exact ht.reached p (List.mem_append_left _ hold)
    · obtain rfl := List.mem_singleton.mp hnew
      exact (ht.reached t.process (List.mem_append_right _ List.mem_cons_self)).step hstep
  · have htraced := ht.traced
    simp only [processes, List.flatMap_append, List.flatMap_singleton] at htraced
    simp only [Trail.served, processes, AuditPipe.emitted_emitAll, List.filterMap_append, htraced,
      List.flatMap_append, List.flatMap_singleton, hjournal, List.drop_left, entriesOf_append,
      List.filterMap_map, List.append_assoc]
    congr 2
    exact List.filterMap_some

theorem Kept.other {e : Emission} (ht : t.Kept format base) (he : e.reportedEntry = none) :
    ({ t with pipe := t.pipe.emit e } : Trail).Kept format base where
  reached := ht.reached
  piped := ht.piped.emit e
  traced := by
    change (t.pipe.emit e).emitted.filterMap Emission.reportedEntry = _
    rw [AuditPipe.emitted_emit, List.filterMap_append, List.filterMap_cons_none he,
      List.filterMap_nil, List.append_nil]
    exact ht.traced

theorem Kept.restarted (ht : t.Kept format base) (cfg : ServiceConfig) (lists : Lists)
    (cfgs : List TcpPassthroughConfig) :
    (Trail.mk ⟨cfg, .initial lists cfgs⟩ t.pipe.restart (t.past ++ [t.process])).Kept
      format base where
  reached := by
    intro p hp
    rcases List.mem_append.mp hp with hold | hnew
    · exact ht.reached p hold
    · obtain rfl := List.mem_singleton.mp hnew
      exact Process.reached_initial cfg lists cfgs
  piped := ht.piped.restart
  traced := by
    have hnothing : entriesOf (Service.initial lists cfgs).journal = [] := rfl
    simp only [processes, List.flatMap_append, List.flatMap_singleton, hnothing, List.append_nil]
    have htraced := ht.traced
    simp only [processes, List.flatMap_append, List.flatMap_singleton] at htraced
    exact htraced

theorem Kept.step {move : TrailMove} (ht : t.Kept format base) (hstep : t.step format base move = some t') :
    t'.Kept format base := by
  cases move with
  | serve a ts =>
      obtain ⟨service, hservice, rfl⟩ := Option.map_eq_some_iff.mp hstep
      exact ht.served ts hservice
  | other e =>
      rw [Trail.step] at hstep
      split at hstep
      · rename_i he
        cases hstep
        exact ht.other (Option.isNone_iff_eq_none.mp he)
      · cases hstep
  | receive =>
      obtain ⟨pipe, hpipe, rfl⟩ := Option.map_eq_some_iff.mp hstep
      exact ht.written .receive (by simp) hpipe
  | writeLine secs renameOk =>
      obtain ⟨pipe, hpipe, rfl⟩ := Option.map_eq_some_iff.mp hstep
      exact ht.written (.writeLine secs renameOk) (by simp) hpipe
  | writeNewline =>
      obtain ⟨pipe, hpipe, rfl⟩ := Option.map_eq_some_iff.mp hstep
      exact ht.written .writeNewline (by simp) hpipe
  | restart cfg lists cfgs =>
      obtain rfl := Option.some.inj hstep
      exact ht.restarted cfg lists cfgs

end Trail

/-! ### What a line says -/

theorem AuditRecord.lookup_event {r : AuditRecord} (h : "event" ∉ r.fields.map Prod.fst) :
    r.object.lookup "event" = some (.text r.event) := by
  have hnone : r.fields.reverse.lookup "event" = none := by
    rw [List.lookup_eq_none_iff]
    intro f hf
    rw [bne_iff_ne]
    intro hkey
    exact h (List.mem_map.mpr ⟨f, List.mem_reverse.mp hf, hkey.symm⟩)
  rw [lookup_object, hnone]
  rfl

theorem AuditEntry.event_notMem (ts : Int) (entry : AuditEntry) :
    "event" ∉ (entry.record ts).fields.map Prod.fst := by
  cases entry with
  | tunnelOpen endpoint _ _ =>
      cases endpoint <;> simp [AuditEntry.record, Endpoint.auditFields]
  | tunnelClose endpoint _ _ _ =>
      cases endpoint <;> simp [AuditEntry.record, Endpoint.auditFields, Usage.auditFields]
  | tunnelKeepaliveTimeout endpoint _ _ =>
      cases endpoint <;> simp [AuditEntry.record, Endpoint.auditFields, Usage.auditFields]
  | _ => simp [AuditEntry.record]

theorem LogEvent.event_notMem (ts : Int) (event : LogEvent) :
    "event" ∉ (event.record ts).fields.map Prod.fst := by
  cases event with
  | reported entry => exact entry.event_notMem ts
  | _ => simp [LogEvent.record, Usage.auditFields]

theorem LogEvent.entry_of_event {event : LogEvent} {entry : AuditEntry} {ts ts' : Int}
    (h : (event.record ts').event = (entry.record ts).event) : ∃ e, event = .reported e := by
  cases event with
  | reported e => exact ⟨e, rfl⟩
  | _ => cases entry <;> simp [LogEvent.record, AuditEntry.record] at h

theorem Emission.eq_of_object {e : Emission} {entry : AuditEntry} {ts : Int}
    (h : e.object = (entry.record ts).object) : e = ⟨ts, .reported entry⟩ := by
  obtain ⟨ts', event⟩ := e
  have hname := AuditRecord.lookup_event (event.event_notMem ts')
  rw [show (event.record ts').object = (entry.record ts).object from h,
    AuditRecord.lookup_event (entry.event_notMem ts), Option.some.injEq,
    AuditValue.text.injEq] at hname
  obtain ⟨e, rfl⟩ := LogEvent.entry_of_event hname.symm
  obtain ⟨rfl, rfl⟩ := AuditEntry.eq_of_object h
  rfl

theorem Trail.kept_run {format : AuditFormat} {base : String} {cfg : ServiceConfig}
    {lists : Lists} {cfgs : List TcpPassthroughConfig} {moves : List TrailMove} {t : Trail}
    (hrun : FreeRun (Trail.step format base) (.initial cfg lists cfgs) moves t) :
    t.Kept format base :=
  hrun.invariant (I := Trail.Kept format base) (Trail.kept_initial format base cfg lists cfgs)
    fun _ _ _ ht _ hstep => ht.step hstep

/-- An object in a file of the log that is an event of a call or of an accept loop is one
that this process or one before it has reported. -/
theorem Trail.Kept.reported {format : AuditFormat} {base : String} {t : Trail}
    (ht : t.Kept format base) {written : List Emission} {groups : Nat → List (List Emission)}
    (hfiled : t.pipe.Filed format written groups) (hwritten : written ⊆ t.pipe.emitted)
    {file : Nat} {text : List Char} (htext : text ∈ lines (pieceText (t.pipe.log.fs.contents file)))
    {ts : Int} {entry : AuditEntry}
    (hread : format.fromStr (String.ofList text) = some (entry.record ts).object) :
    ∃ p ∈ t.processes, entry ∈ entriesOf p.service.journal := by
  have hmem : some (entry.record ts).object ∈ (groups file).map Emission.gluedObject := by
    rw [← hfiled.read file]
    exact List.mem_map.mpr ⟨text, htext, hread⟩
  obtain ⟨g, hg, hobject⟩ := List.mem_map.mp hmem
  obtain ⟨e, rfl, hentry⟩ : ∃ e, g = [e] ∧ e.object = (entry.record ts).object := by
    match g, hobject with
    | [e], hobject => exact ⟨e, rfl, Option.some.inj hobject⟩
  obtain rfl := Emission.eq_of_object hentry
  have hemitted : (⟨ts, .reported entry⟩ : Emission) ∈ t.pipe.emitted := by
    apply hwritten
    apply (hfiled.ordered file).subset
    exact List.mem_flatten.mpr ⟨_, hg, List.mem_cons_self⟩
  have hfound : entry ∈ t.pipe.emitted.filterMap Emission.reportedEntry :=
    List.mem_filterMap.mpr ⟨_, hemitted, rfl⟩
  rw [ht.traced] at hfound
  exact List.mem_flatMap.mp hfound

/-- The log tells the truth and is told everything. Whatever processes wrote to it, an object
in one of its files with an event of a call or of an accept loop is one that a process
reported, and what it says of a tunnel was so: the client had been told the URL, and the call
of a closed one had returned. And the events that were emitted are those that the processes
reported, in their order; each of them stands in one of the files, is on its way there, or
was lost, because the channel was full or its process ended first. -/
theorem audit_trail (format : AuditFormat) (base : String) (cfg : ServiceConfig) (lists : Lists)
    (cfgs : List TcpPassthroughConfig) (moves : List TrailMove) (t : Trail)
    (hrun : FreeRun (Trail.step format base) (.initial cfg lists cfgs) moves t)
    (hformat : format.Sound (t.pipe.emitted.map Emission.object)) :
    (∀ file, ∀ text ∈ lines (pieceText (t.pipe.log.fs.contents file)), ∀ ts entry,
      format.fromStr (String.ofList text) = some (AuditEntry.record ts entry).object →
      ∃ p ∈ t.processes, entry ∈ entriesOf p.service.journal ∧ p.Backs entry) ∧
    t.pipe.emitted.filterMap Emission.reportedEntry =
      t.processes.flatMap (fun p => entriesOf p.service.journal) ∧
    (∃ written groups, t.pipe.Filed format written groups ∧
      Accounts t.pipe.emitted (written ++ t.pipe.pending) t.pipe.lost) ∧
    ∃ pipeMoves, FreeRun (AuditPipe.step format base) .start pipeMoves t.pipe ∧
      ∀ e ∈ t.pipe.lost,
        Occurred (AuditPipe.step format base) (AuditPipe.Loses e) .start pipeMoves := by
  have ht := Trail.kept_run hrun
  obtain ⟨pipeMoves, hpipe⟩ := ht.piped
  have haccounted := AuditPipe.accounted_run hpipe
  obtain ⟨groups, hfiled⟩ := (AuditPipe.wellFormed_run hpipe).filed_begun hformat
    fun e he => List.mem_map_of_mem (haccounted.begun_subset he)
  refine ⟨?_, ht.traced, ⟨_, groups, hfiled, haccounted⟩, pipeMoves, hpipe,
    AuditPipe.lost_run hpipe⟩
  intro file text htext ts entry hread
  obtain ⟨p, hp, hentry⟩ := ht.reported hfiled haccounted.begun_subset htext hread
  refine ⟨p, hp, hentry, ?_⟩
  obtain ⟨⟨who, notice⟩, hmem, hnotice⟩ := List.mem_filterMap.mp hentry
  cases notice with
  | audit entry' =>
      obtain rfl := Option.some.inj hnotice
      exact (ht.reached p hp).backs hmem
  | _ => cases hnotice

def openedTunnel : AuditEntry := .tunnelOpen (.tcp 4000) "tcp://example.com:4000" "192.0.2.1"

def timedOut : AuditEntry := .tunnelKeepaliveTimeout (.tcp 4000) "192.0.2.1" ⟨60, 10, 20⟩

/-- The relay is started again while the last event of its tunnel is being written. -/
def restartedRelay : List TrailMove :=
  timedOutTunnel.map (.serve · 100) ++
    [.receive, .writeLine 100 true, .writeNewline, .receive, .writeLine 160 true,
      .restart openService .disabled []]

def tunnelFormat : AuditFormat := formatOf (objectsOf [(100, openedTunnel), (100, timedOut)])

theorem audit_trail_restartedRelay :
    ∃ t, FreeRun (Trail.step tunnelFormat "audit") (.initial openService .disabled [])
        restartedRelay t ∧
      (∃ p ∈ t.processes, openedTunnel ∈ entriesOf p.service.journal ∧ p.Backs openedTunnel) ∧
      ∃ written groups, t.pipe.Filed tunnelFormat written groups ∧
        Accounts t.pipe.emitted (written ++ t.pipe.pending) t.pipe.lost := by
  have hexec : (exec (Trail.step tunnelFormat "audit") (.initial openService .disabled [])
      restartedRelay).map (fun t => (t.pipe.emitted, (lines (pieceText (t.pipe.log.fs.contents 0))).map
        (fun text => tunnelFormat.fromStr (String.ofList text)))) =
        some ([⟨100, .reported openedTunnel⟩, ⟨100, .reported timedOut⟩],
          [some (openedTunnel.record 100).object, some (timedOut.record 100).object]) := by
    decide +kernel
  obtain ⟨t, hrun, hstate⟩ := exists_freeRun hexec
  obtain ⟨hemitted, hread⟩ := Prod.mk.inj hstate
  have hformat : tunnelFormat.Sound (t.pipe.emitted.map Emission.object) := by
    rw [hemitted]
    exact sound_formatOf (by decide +kernel) (by decide +kernel)
  obtain ⟨hbacked, -, hfiled, -⟩ :=
    audit_trail tunnelFormat "audit" openService .disabled [] _ t hrun hformat
  obtain ⟨text, htext, hobject⟩ := List.mem_map.mp (hread ▸ List.mem_cons_self)
  exact ⟨t, hrun, hbacked 0 text htext 100 openedTunnel hobject, hfiled⟩

end Seamless.Relay
