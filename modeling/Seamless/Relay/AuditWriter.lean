import Seamless.Library.Mailbox
import Seamless.Relay.AuditLog
import Seamless.Relay.AuditText

/-!
The way of an event from `emit` to a reader of the log: through the channel, into the hands
of the writer task, and to the file in two writes, of the line and of its newline. A process
can end between any two of these steps, and the next one goes on in the same file.
-/

namespace Seamless.Relay

open Seamless.Library
open Seamless.Library.Text
open Seamless.Library.TransitionSystem

/-- All events of the relay; the other ones are those of `acme.rs`, `admin.rs` and `ingress.rs`. -/
inductive LogEvent where
  | reported (entry : AuditEntry)
  | certObtained (domain certPath : String)
  | certRenewed
  | adminDisconnect (subdomain clientIp : String) (usage : Usage)
  | adminBulkDisconnect (subdomain clientIp : String) (usage : Usage)
  | customDomainRegistered (domain tunnelId : String)
  | ddosConfigUpdated (tunnelId : String) (enabled : Bool) (rps burst : UInt32)
  | tlsConnection (peer fingerprint : String)
  | httpGeoBlocked (peer country : String)
  | ddosBlocked (tunnelId clientIp : String)
  deriving Repr, DecidableEq

namespace LogEvent

def record (ts : Int) : LogEvent → AuditRecord
  | reported entry => entry.record ts
  | certObtained domain certPath =>
      ⟨ts, "acme.cert_obtained", [("domain", .text domain), ("cert_path", .text certPath)]⟩
  | certRenewed => ⟨ts, "acme.cert_renewed", [("domain", .text "")]⟩
  | adminDisconnect subdomain clientIp usage =>
      ⟨ts, "tunnel.admin_disconnect",
        [("subdomain", .text subdomain), ("client_ip", .text clientIp)] ++ usage.auditFields⟩
  | adminBulkDisconnect subdomain clientIp usage =>
      ⟨ts, "tunnel.admin_bulk_disconnect",
        [("subdomain", .text subdomain), ("client_ip", .text clientIp)] ++ usage.auditFields⟩
  | customDomainRegistered domain tunnelId =>
      ⟨ts, "custom_domain.registered", [("domain", .text domain), ("tunnel_id", .text tunnelId)]⟩
  | ddosConfigUpdated tunnelId enabled rps burst =>
      ⟨ts, "ddos.config_updated",
        [("tunnel_id", .text tunnelId), ("enabled", .flag enabled), ("rps", .whole rps.toNat),
          ("burst", .whole burst.toNat)]⟩
  | tlsConnection peer fingerprint =>
      ⟨ts, "tls.connection", [("peer", .text peer), ("fingerprint", .text fingerprint)]⟩
  | httpGeoBlocked peer country =>
      ⟨ts, "http.geo_blocked", [("peer", .text peer), ("country", .text country)]⟩
  | ddosBlocked tunnelId clientIp =>
      ⟨ts, "ddos.blocked", [("tunnel_id", .text tunnelId), ("client_ip", .text clientIp)]⟩

end LogEvent

/-- An event with the time at which it was emitted. -/
structure Emission where
  ts : Int
  event : LogEvent
  deriving Repr, DecidableEq

namespace Emission

def object (e : Emission) : AuditObject := (e.event.record e.ts).object

def line (format : AuditFormat) (e : Emission) : String := format.toString e.object

end Emission

/-! ### The writer -/

def auditCapacity : Nat := 8192

/-- Where the writer task is: at `recv`, with an event in its hands, or between the two
writes of `write_event`. -/
inductive Writing where
  | waiting
  | received (e : Emission)
  | halfway (e : Emission)
  deriving Repr, DecidableEq

/-- The parts of the files are pieces of text here, a line or a newline. The lists are
history: what was emitted; the events whose line was written; those among them whose newline
was not, because the process ended; and the events that got no line. -/
structure AuditPipe where
  mailbox : Mailbox Emission auditCapacity
  writing : Writing
  log : AuditLog
  emitted : List Emission
  begun : List Emission
  torn : List Emission
  lost : List Emission

inductive PipeMove where
  | emit (e : Emission)
  | receive
  | writeLine (secs : UInt64) (renameOk : Bool)
  | writeNewline
  | restart

/-- The second write of `write_event`. -/
def AuditLog.writeNewline (s : AuditLog) : AuditLog :=
  match s.writer.file with
  | some file => { s with fs := s.fs.append file ["\n"], written := s.written ++ ["\n"] }
  | none => s

namespace Writing

def inHand : Writing → List Emission
  | received e => [e]
  | waiting | halfway _ => []

def unended : Writing → List Emission
  | halfway e => [e]
  | waiting | received _ => []

end Writing

namespace AuditPipe

def start : AuditPipe := ⟨.empty, .waiting, .start, [], [], [], []⟩

/-- What has not got to the writer's files yet. -/
def pending (p : AuditPipe) : List Emission := p.writing.inHand ++ p.mailbox.queue

/-- `try_send` never waits. -/
def emit (p : AuditPipe) (e : Emission) : AuditPipe :=
  match p.mailbox.trySend e with
  | some mailbox => { p with mailbox := mailbox, emitted := p.emitted ++ [e] }
  | none => { p with emitted := p.emitted ++ [e], lost := p.lost ++ [e] }

def receive (p : AuditPipe) : Option AuditPipe :=
  match p.writing with
  | .waiting => p.mailbox.recv.map fun r => { p with mailbox := r.2, writing := .received r.1 }
  | .received _ | .halfway _ => none

def writeLine (format : AuditFormat) (base : String) (secs : UInt64) (renameOk : Bool)
    (p : AuditPipe) : Option AuditPipe :=
  match p.writing with
  | .received e =>
      some { p with
        log := p.log.writeEvent base (epochToYmd secs) (e.line format) renameOk
        writing := .halfway e
        begun := p.begun ++ [e] }
  | .waiting | .halfway _ => none

def writeNewline (p : AuditPipe) : Option AuditPipe :=
  match p.writing with
  | .halfway _ => some { p with log := p.log.writeNewline, writing := .waiting }
  | .waiting | .received _ => none

def restart (p : AuditPipe) : AuditPipe :=
  { p with
    mailbox := .empty
    writing := .waiting
    log := { p.log with writer := ⟨none, none⟩ }
    torn := p.torn ++ p.writing.unended
    lost := p.lost ++ p.pending }

def step (format : AuditFormat) (base : String) (p : AuditPipe) : PipeMove → Option AuditPipe
  | .emit e => some (p.emit e)
  | .receive => p.receive
  | .writeLine secs renameOk => p.writeLine format base secs renameOk
  | .writeNewline => p.writeNewline
  | .restart => some p.restart

end AuditPipe

/-- Everything a move of the pipe can do. -/
inductive PipeStep (format : AuditFormat) (base : String) (p : AuditPipe) :
    PipeMove → AuditPipe → Prop
  | sent {e : Emission} {mailbox : Mailbox Emission auditCapacity}
      (hsend : p.mailbox.trySend e = some mailbox) :
      PipeStep format base p (.emit e) { p with mailbox := mailbox, emitted := p.emitted ++ [e] }
  | dropped {e : Emission} (hsend : p.mailbox.trySend e = none) :
      PipeStep format base p (.emit e) { p with emitted := p.emitted ++ [e], lost := p.lost ++ [e] }
  | received {e : Emission} {mailbox : Mailbox Emission auditCapacity}
      (hwriting : p.writing = .waiting) (hrecv : p.mailbox.recv = some (e, mailbox)) :
      PipeStep format base p .receive { p with mailbox := mailbox, writing := .received e }
  | lineWritten {secs : UInt64} {renameOk : Bool} {e : Emission}
      (hwriting : p.writing = .received e) :
      PipeStep format base p (.writeLine secs renameOk)
        { p with
          log := p.log.writeEvent base (epochToYmd secs) (e.line format) renameOk
          writing := .halfway e
          begun := p.begun ++ [e] }
  | newlineWritten {e : Emission} (hwriting : p.writing = .halfway e) :
      PipeStep format base p .writeNewline { p with log := p.log.writeNewline, writing := .waiting }
  | restarted : PipeStep format base p .restart p.restart

theorem AuditPipe.step_cases {format : AuditFormat} {base : String} {p p' : AuditPipe}
    {move : PipeMove} (hstep : p.step format base move = some p') : PipeStep format base p move p' := by
  cases move with
  | emit e =>
      obtain rfl := Option.some.inj hstep
      cases hsend : p.mailbox.trySend e with
      | some mailbox =>
          rw [emit, hsend]
          exact .sent hsend
      | none =>
          rw [emit, hsend]
          exact .dropped hsend
  | receive =>
      cases hwriting : p.writing with
      | waiting =>
          rw [step, receive, hwriting] at hstep
          obtain ⟨⟨e, mailbox⟩, hrecv, rfl⟩ := Option.map_eq_some_iff.mp hstep
          exact .received hwriting hrecv
      | received e => simp [step, receive, hwriting] at hstep
      | halfway e => simp [step, receive, hwriting] at hstep
  | writeLine secs renameOk =>
      cases hwriting : p.writing with
      | received e =>
          rw [step, writeLine, hwriting] at hstep
          obtain rfl := Option.some.inj hstep
          exact .lineWritten hwriting
      | waiting => simp [step, writeLine, hwriting] at hstep
      | halfway e => simp [step, writeLine, hwriting] at hstep
  | writeNewline =>
      cases hwriting : p.writing with
      | halfway e =>
          rw [step, writeNewline, hwriting] at hstep
          obtain rfl := Option.some.inj hstep
          exact .newlineWritten hwriting
      | waiting => simp [step, writeNewline, hwriting] at hstep
      | received e => simp [step, writeNewline, hwriting] at hstep
  | restart =>
      obtain rfl := Option.some.inj hstep
      exact .restarted

/-! ### What becomes of the events -/

/-- Every event has got its line, is on its way, or is lost. -/
def AuditPipe.Accounted (p : AuditPipe) : Prop :=
  Accounts p.emitted (p.begun ++ p.pending) p.lost

theorem AuditPipe.Accounted.step {format : AuditFormat} {base : String} {p p' : AuditPipe}
    {move : PipeMove} (hp : p.Accounted) (hstep : PipeStep format base p move p') : p'.Accounted := by
  cases hstep with
  | @sent e mailbox hsend =>
      have hkept := hp.keep e
      rwa [pending, List.append_assoc, List.append_assoc, ← Mailbox.queue_trySend hsend] at hkept
  | @dropped e _ => exact hp.lose e
  | received hwriting hrecv =>
      rwa [Accounted, pending, hwriting, Writing.inHand, Mailbox.queue_recv hrecv] at hp
  | lineWritten hwriting =>
      rw [Accounted, pending, hwriting, Writing.inHand] at hp
      rw [Accounted, pending, Writing.inHand, List.nil_append, List.append_assoc]
      exact hp
  | newlineWritten hwriting => rwa [Accounted, pending, hwriting] at hp
  | restarted =>
      have hforgotten := Accounts.forget hp
      rw [Accounted, pending, restart, Writing.inHand, Mailbox.empty]
      simpa using hforgotten

theorem AuditPipe.accounted_run {format : AuditFormat} {base : String} {moves : List PipeMove}
    {p : AuditPipe} (hrun : FreeRun (AuditPipe.step format base) .start moves p) : p.Accounted :=
  hrun.invariant (I := AuditPipe.Accounted) Accounts.nil fun _ _ _ hp _ hstep =>
    hp.step (AuditPipe.step_cases hstep)

/-- The move takes `e` away: it is emitted into a full channel, or the process ends before it
has got to a file. -/
def AuditPipe.Loses (e : Emission) (p : AuditPipe) (move : PipeMove) : Prop :=
  (move = .emit e ∧ p.mailbox.queue.length = auditCapacity) ∨ (move = .restart ∧ e ∈ p.pending)

/-- The process ends between the line of `e` and its newline. -/
def AuditPipe.Tears (e : Emission) (p : AuditPipe) (move : PipeMove) : Prop :=
  move = .restart ∧ p.writing = .halfway e

namespace AuditPipe

variable {format : AuditFormat} {base : String} {p p' : AuditPipe} {moves : List PipeMove}
  {move : PipeMove} {e : Emission}

theorem loses_of_step (hstep : PipeStep format base p move p') (he : e ∈ p'.lost) :
    e ∈ p.lost ∨ p.Loses e move := by
  cases hstep with
  | sent => exact .inl he
  | dropped hsend =>
      rcases List.mem_append.mp he with hold | hnew
      · exact .inl hold
      · rw [List.mem_singleton.mp hnew]
        exact .inr (.inl ⟨rfl, Mailbox.length_queue_of_trySend_none hsend⟩)
  | received => exact .inl he
  | lineWritten => exact .inl he
  | newlineWritten => exact .inl he
  | restarted =>
      rcases List.mem_append.mp he with hold | hnew
      · exact .inl hold
      · exact .inr (.inr ⟨rfl, hnew⟩)

theorem tears_of_step (hstep : PipeStep format base p move p') (he : e ∈ p'.torn) :
    e ∈ p.torn ∨ p.Tears e move := by
  cases hstep with
  | sent => exact .inl he
  | dropped => exact .inl he
  | received => exact .inl he
  | lineWritten => exact .inl he
  | newlineWritten => exact .inl he
  | restarted =>
      rcases List.mem_append.mp he with hold | hnew
      · exact .inl hold
      · refine .inr ⟨rfl, ?_⟩
        cases hwriting : p.writing with
        | waiting => simp [hwriting, Writing.unended] at hnew
        | received e' => simp [hwriting, Writing.unended] at hnew
        | halfway e' =>
            rw [hwriting, Writing.unended, List.mem_singleton] at hnew
            rw [hnew]

theorem lost_run (hrun : FreeRun (AuditPipe.step format base) .start moves p) :
    ∀ e ∈ p.lost, Occurred (AuditPipe.step format base) (Loses e) .start moves := by
  induction hrun with
  | nil => exact fun e he => by cases he
  | snoc hinit _ hlast ih =>
      intro e he
      rcases loses_of_step (step_cases hlast) he with hold | hnew
      · exact (ih e hold).snoc _
      · exact hinit.occurred_last hnew

theorem torn_run (hrun : FreeRun (AuditPipe.step format base) .start moves p) :
    ∀ e ∈ p.torn, Occurred (AuditPipe.step format base) (Tears e) .start moves := by
  induction hrun with
  | nil => exact fun e he => by cases he
  | snoc hinit _ hlast ih =>
      intro e he
      rcases tears_of_step (step_cases hlast) he with hold | hnew
      · exact (ih e hold).snoc _
      · exact hinit.occurred_last hnew

theorem Accounted.begun_subset (h : p.Accounted) : p.begun ⊆ p.emitted :=
  List.Subset.trans (List.subset_append_left _ _) h.ordered.subset

end AuditPipe

/-! ### The files -/

theorem contents_eq_nil {fs : FileSystem String String} {file : Nat}
    (h : fs.files.length ≤ file) : fs.contents file = [] := by
  rw [FileSystem.contents, List.getElem?_eq_none h]
  rfl

namespace AuditLog

theorem files_rotateAtMidnight (base : String) (today : Date) (renameOk : Bool)
    (s : AuditLog) : (s.rotateAtMidnight base today renameOk).fs.files = s.fs.files := by
  unfold rotateAtMidnight
  split
  · rename_i date _
    split
    · rw [rotate]
      cases renameOk with
      | false => rfl
      | true =>
          cases hrename : s.fs.rename base (rotatedName base date) with
          | none => rfl
          | some fs' => exact FileSystem.files_rename hrename
    · rfl
  · rfl

theorem contents_openLogFile (base : String) (today : Date) (s : AuditLog) (file : Nat) :
    (s.openLogFile base today).2.fs.contents file = s.fs.contents file := by
  unfold openLogFile
  split
  · rfl
  · exact (s.fs.openCreate_spec base).2.2 file

theorem length_files_append (fs : FileSystem String String) (file : Nat) (pieces : List String) :
    (fs.append file pieces).files.length = fs.files.length :=
  List.length_set

theorem length_le_writeEvent (base : String) (today : Date) (line : String) (renameOk : Bool)
    (s : AuditLog) :
    s.fs.files.length ≤ (s.writeEvent base today line renameOk).fs.files.length := by
  have hrotated : (s.rotateAtMidnight base today renameOk).fs.files = s.fs.files :=
    files_rotateAtMidnight base today renameOk s
  rw [writeEvent, length_files_append, ← hrotated]
  unfold openLogFile
  split
  · exact le_rfl
  · exact FileSystem.length_le_openCreate _ base

theorem named_rotateAtMidnight (base : String) (today : Date) (renameOk : Bool) {s : AuditLog}
    {file : Nat} (hnamed : s.fs.Named file) :
    (s.rotateAtMidnight base today renameOk).fs.Named file ∨
      renameOk = true ∧ ∃ date, s.writer.openDate = some date ∧ date ≠ today ∧
        s.fs.directory.lookup (rotatedName base date) = some file := by
  unfold rotateAtMidnight
  split
  · rename_i date hdate
    split
    · rename_i hother
      cases renameOk with
      | false => exact .inl hnamed
      | true =>
          cases hrename : s.fs.rename base (rotatedName base date) with
          | none =>
              left
              simpa [rotate, hrename] using hnamed
          | some fs' =>
              rcases FileSystem.named_rename hrename hnamed with hkept | htaken
              · left
                simpa [rotate, hrename] using hkept
              · exact .inr ⟨rfl, date, hdate, hother, htaken⟩
    · exact .inl hnamed
  · exact .inl hnamed

theorem named_openLogFile {base : String} {today : Date} {s : AuditLog} {file : Nat}
    (hnamed : file < s.fs.files.length → s.fs.Named file)
    (hfile : file < (s.openLogFile base today).2.fs.files.length) :
    (s.openLogFile base today).2.fs.Named file := by
  unfold openLogFile at hfile ⊢
  split at hfile
  · exact hnamed hfile
  · exact FileSystem.named_openCreate hnamed hfile

theorem named_writeEvent {base : String} {today : Date} {line : String} {renameOk : Bool}
    {s : AuditLog} {file : Nat} (hnamed : file < s.fs.files.length → s.fs.Named file)
    (hfile : file < (s.writeEvent base today line renameOk).fs.files.length) :
    (s.writeEvent base today line renameOk).fs.Named file ∨
      renameOk = true ∧ ∃ date, s.writer.openDate = some date ∧ date ≠ today ∧
        s.fs.directory.lookup (rotatedName base date) = some file := by
  rw [writeEvent, length_files_append] at hfile
  have hfiles := files_rotateAtMidnight base today renameOk s
  by_cases hold : file < s.fs.files.length
  · rcases named_rotateAtMidnight base today renameOk (hnamed hold) with hkept | htaken
    · exact .inl (named_openLogFile (fun _ => hkept) hfile)
    · exact .inr htaken
  · left
    refine named_openLogFile (fun hlt => ?_) hfile
    rw [hfiles] at hlt
    exact absurd hlt hold

/-- The handle of the writer is that of a file. -/
def Linked (s : AuditLog) : Prop := ∀ file, s.writer.file = some file → file < s.fs.files.length

theorem Linked.rotateAtMidnight {s : AuditLog} (h : s.Linked) (base : String) (today : Date)
    (renameOk : Bool) : (s.rotateAtMidnight base today renameOk).Linked := by
  unfold AuditLog.rotateAtMidnight
  split
  · split
    · intro file hfile
      cases hfile
    · exact h
  · exact h

theorem Linked.openLogFile {s : AuditLog} (h : s.Linked) (base : String) (today : Date) :
    (s.openLogFile base today).2.writer.file = some (s.openLogFile base today).1 ∧
      (s.openLogFile base today).1 < (s.openLogFile base today).2.fs.files.length := by
  unfold AuditLog.openLogFile
  split
  · rename_i file hfile
    exact ⟨hfile, h file hfile⟩
  · exact ⟨rfl, (s.fs.openCreate base).2.linked base _ (s.fs.openCreate_spec base).1⟩

theorem contents_append {fs : FileSystem String String} {file : Nat}
    (h : file < fs.files.length) (pieces : List String) (file' : Nat) :
    (fs.append file pieces).contents file' =
      if file' = file then fs.contents file' ++ pieces else fs.contents file' := by
  split
  · rename_i hfile
    subst hfile
    exact FileSystem.contents_setContents_self h _
  · rename_i hfile
    exact FileSystem.contents_setContents_ne hfile fs _

theorem Linked.writeEvent {s : AuditLog} (h : s.Linked) (base : String) (today : Date)
    (line : String) (renameOk : Bool) :
    (s.writeEvent base today line renameOk).Linked ∧
    ∃ file, (s.writeEvent base today line renameOk).writer.file = some file ∧
      ∀ file', (s.writeEvent base today line renameOk).fs.contents file' =
        if file' = file then s.fs.contents file' ++ [line] else s.fs.contents file' := by
  obtain ⟨hfile, hlinked⟩ := (h.rotateAtMidnight base today renameOk).openLogFile base today
  have hcontents : ∀ file', ((s.rotateAtMidnight base today renameOk).openLogFile base
      today).2.fs.contents file' = s.fs.contents file' := by
    intro file'
    rw [contents_openLogFile, FileSystem.contents, FileSystem.contents, files_rotateAtMidnight]
  unfold AuditLog.writeEvent
  generalize (s.rotateAtMidnight base today renameOk).openLogFile base today = opened at *
  obtain ⟨file, t⟩ := opened
  refine ⟨?_, file, hfile, fun file' => ?_⟩
  · intro file' hfile'
    obtain rfl : file = file' := Option.some.inj (hfile.symm.trans hfile')
    exact lt_of_lt_of_eq hlinked (length_files_append _ _ _).symm
  · rw [contents_append hlinked, hcontents]

theorem Linked.writeNewline {s : AuditLog} (h : s.Linked) {file : Nat}
    (hfile : s.writer.file = some file) :
    s.writeNewline.Linked ∧
    (∀ file', s.writeNewline.fs.contents file' =
      if file' = file then s.fs.contents file' ++ ["\n"] else s.fs.contents file') ∧
    s.writeNewline.fs.files.length = s.fs.files.length := by
  have hlinked := h file hfile
  rw [AuditLog.writeNewline, hfile]
  refine ⟨?_, contents_append hlinked _, length_files_append _ _ _⟩
  intro file' hfile'
  obtain rfl : file = file' := Option.some.inj (hfile.symm.trans hfile')
  exact lt_of_lt_of_eq hlinked (length_files_append _ _ _).symm

end AuditLog

/-- The move renames the base file to the name of this file. -/
def AuditPipe.Replaces (base : String) (file : Nat) (p : AuditPipe) (move : PipeMove) : Prop :=
  ∃ secs date, move = .writeLine secs true ∧ p.log.writer.openDate = some date ∧
    date ≠ epochToYmd secs ∧ p.log.fs.directory.lookup (rotatedName base date) = some file

namespace AuditPipe

variable {format : AuditFormat} {base : String} {p p' : AuditPipe} {moves : List PipeMove}
  {move : PipeMove} {file : Nat}

theorem named_of_step (hstep : PipeStep format base p move p')
    (hnamed : file < p.log.fs.files.length → p.log.fs.Named file)
    (hfile : file < p'.log.fs.files.length) :
    p'.log.fs.Named file ∨ p.Replaces base file move := by
  cases hstep with
  | sent => exact .inl (hnamed hfile)
  | dropped => exact .inl (hnamed hfile)
  | received => exact .inl (hnamed hfile)
  | lineWritten =>
      rcases AuditLog.named_writeEvent hnamed hfile with hkept | ⟨rfl, date, hdate, hother, htaken⟩
      · exact .inl hkept
      · exact .inr ⟨_, date, rfl, hdate, hother, htaken⟩
  | newlineWritten =>
      left
      unfold AuditLog.writeNewline at hfile ⊢
      split at hfile
      · rw [AuditLog.length_files_append] at hfile
        exact hnamed hfile
      · exact hnamed hfile
  | restarted => exact .inl (hnamed hfile)

theorem named_run (hrun : FreeRun (AuditPipe.step format base) .start moves p) (file : Nat)
    (hfile : file < p.log.fs.files.length) : p.log.fs.Named file ∨
      Occurred (AuditPipe.step format base) (Replaces base file) .start moves := by
  induction hrun with
  | nil => cases hfile
  | @snoc moves p p' move hinit _ hlast ih =>
      by_cases hreplaced : Occurred (AuditPipe.step format base) (Replaces base file) .start moves
      · exact .inr (hreplaced.snoc _)
      · rcases named_of_step (step_cases hlast) (fun hold => (ih hold).resolve_right hreplaced)
          hfile with hkept | htaken
        · exact .inl hkept
        · exact .inr (hinit.occurred_last htaken)

end AuditPipe

end Seamless.Relay
