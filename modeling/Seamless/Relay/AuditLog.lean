import Mathlib.Algebra.Group.Int.Defs
import Seamless.Library.FileSystem
import Seamless.Library.TransitionSystem

/-!
The audit log on disk: events are appended to the base file, which the first write of
another day renames to `<base>.YYYY-MM-DD`. A file is the list of its lines. The clock
is set by the environment, as is the outcome of every rename; opens and writes succeed.
-/

namespace Seamless.Relay

open Seamless.Library
open Seamless.Library.TransitionSystem

/-- A calendar date as `utc_date_today` returns it. -/
structure Date where
  year : Int32
  month : UInt32
  day : UInt32
  deriving DecidableEq

/-- Epoch seconds to the date in UTC. Division truncates, casts wrap. -/
def epochToYmd (secs : UInt64) : Date :=
  let days : Int := secs.toNat / 86400
  let z := days + 719468
  let era := (if 0 ≤ z then z else z - 146096).tdiv 146097
  let doe := z - era * 146097
  let yoe := (doe - doe.tdiv 1460 + doe.tdiv 36524 - doe.tdiv 146096).tdiv 365
  let y := yoe + era * 400
  let doy := doe - (365 * yoe + yoe.tdiv 4 - yoe.tdiv 100)
  let mp := (5 * doy + 2).tdiv 153
  let d := doy - (153 * mp + 2).tdiv 5 + 1
  let m := if mp < 10 then mp + 3 else mp - 9
  let y := if m ≤ 2 then y + 1 else y
  ⟨.ofInt y, .ofNat (m % 2 ^ 32).toNat, .ofNat (d % 2 ^ 32).toNat⟩

/-- The format `{:0width}`, in which the sign counts towards the width. -/
def padded (width : Nat) (n : Int) : String :=
  let sign := if n < 0 then "-" else ""
  let digits := toString n.natAbs
  sign ++ String.ofList (List.replicate (width - (sign.length + digits.length)) '0') ++ digits

def rotatedName (base : String) (date : Date) : String :=
  base ++ "." ++ padded 4 date.year.toInt ++ "-" ++ padded 2 date.month.toNat ++ "-" ++
    padded 2 date.day.toNat

/-- `file` is the open handle, `openDate` the date on which it was opened. -/
structure WriterState where
  file : Option Nat
  openDate : Option Date

/-- The directory of the log, the writer, and every line written so far. -/
structure AuditLog where
  fs : FileSystem String String
  writer : WriterState
  written : List String

namespace AuditLog

def start : AuditLog := ⟨.empty, ⟨none, none⟩, []⟩

/-- The handle is closed before the rename, whatever becomes of the latter. -/
def rotate (base : String) (oldDate : Date) (renameOk : Bool) (s : AuditLog) : AuditLog :=
  { s with
    fs := if renameOk then (s.fs.rename base (rotatedName base oldDate)).getD s.fs else s.fs
    writer := ⟨none, none⟩ }

def rotateAtMidnight (base : String) (today : Date) (renameOk : Bool) (s : AuditLog) : AuditLog :=
  match s.writer.openDate with
  | some date => if date ≠ today then s.rotate base date renameOk else s
  | none => s

/-- The handle that is written to, opened if there is none. -/
def openLogFile (base : String) (today : Date) (s : AuditLog) : Nat × AuditLog :=
  match s.writer.file with
  | some file => (file, s)
  | none =>
      let opened := s.fs.openCreate base
      (opened.1, { s with fs := opened.2, writer := ⟨some opened.1, some today⟩ })

def writeEvent (base : String) (today : Date) (line : String) (renameOk : Bool) (s : AuditLog) :
    AuditLog :=
  let (file, s) := (s.rotateAtMidnight base today renameOk).openLogFile base today
  { s with fs := s.fs.append file [line], written := s.written ++ [line] }

end AuditLog

/-- A call of `write_event` at the time `secs`, or the end of the process with the start
of another one. -/
inductive AuditMove where
  | writeEvent (secs : UInt64) (line : String) (renameOk : Bool)
  | restart

def AuditLog.step (base : String) (s : AuditLog) : AuditMove → Option AuditLog
  | .writeEvent secs line renameOk => some (s.writeEvent base (epochToYmd secs) line renameOk)
  | .restart => some { s with writer := ⟨none, none⟩ }

def LogName (base name : String) : Prop :=
  name = base ∨ ∃ date, name = rotatedName base date

/-- Every line that was written is in the base file or in a rotated one, as often as it
was written. -/
def AuditLog.Retained (base : String) (s : AuditLog) : Prop :=
  ∃ names : List String, names.Nodup ∧ (∀ name ∈ names, LogName base name) ∧
    s.written.Subperm (names.flatMap fun name => (s.fs.read name).getD [])

/-- No rotation goes to a name that has a file. -/
def AuditMove.rotatesToFresh (base : String) (s : AuditLog) : AuditMove → Bool
  | .writeEvent secs _ renameOk =>
      match s.writer.openDate with
      | some date =>
          date = epochToYmd secs || !renameOk || (s.fs.read (rotatedName base date)).isNone
      | none => true
  | .restart => true

section Rotation

variable {base : String} {today : Date} {line : String} {renameOk : Bool} {s s' : AuditLog}

/-- What is known of every reachable state. -/
structure AuditLog.Consistent (base : String) (s : AuditLog) : Prop where
  handle : ∀ file, s.writer.file = some file → s.fs.directory.lookup base = some file
  dated : s.writer.file = none → s.writer.openDate = none
  named : ∀ name text, s.fs.read name = some text → LogName base name
  nonempty : ∀ name text, s.fs.read name = some text → text ≠ []
  traced : s.fs.everything.Subperm s.written

theorem rotatedName_ne (base : String) (date : Date) : base ≠ rotatedName base date := by
  intro h
  have hlength := congrArg String.length h
  simp only [rotatedName, String.length_append] at hlength
  have hdot : ".".length = 1 := rfl
  omega

namespace AuditLog

theorem consistent_start (base : String) : start.Consistent base := by
  constructor <;> simp [start, FileSystem.read, FileSystem.empty, FileSystem.everything]

theorem retained_iff (h : s.Consistent base) :
    s.Retained base ↔ s.written.Subperm s.fs.everything := by
  constructor
  · rintro ⟨names, hnodup, -, hsub⟩
    exact hsub.trans (s.fs.flatMap_read_subperm hnodup)
  · intro hsub
    refine ⟨s.fs.directory.keys, s.fs.directory.keys_nodup, ?_, ?_⟩
    · intro name hname
      obtain ⟨file, hfile⟩ := Option.isSome_iff_exists.mp (AList.lookup_isSome.mpr hname)
      exact h.named name _ (FileSystem.read_of_lookup hfile)
    · rwa [← FileSystem.everything_eq]

/-- What a write takes from the disk: the file under the name it rotates to. -/
def overwritten (base : String) (today : Date) (renameOk : Bool) (s : AuditLog) : List String :=
  match s.writer.openDate with
  | some date =>
      if date = today ∨ renameOk = false then [] else (s.fs.read (rotatedName base date)).getD []
  | none => []

theorem Consistent.reset (h : s.Consistent base) :
    ({ s with writer := ⟨none, none⟩ } : AuditLog).Consistent base where
  handle := by simp
  dated := by simp
  named := h.named
  nonempty := h.nonempty
  traced := h.traced

theorem Consistent.renamed {fs' : FileSystem String String} {date : Date} (h : s.Consistent base)
    (hrename : s.fs.rename base (rotatedName base date) = some fs') :
    ({ s with fs := fs', writer := ⟨none, none⟩ } : AuditLog).Consistent base where
  handle := by simp
  dated := by simp
  named := by
    intro name text hread
    rw [FileSystem.read_rename hrename] at hread
    split at hread
    · rename_i hname
      exact .inr ⟨date, hname⟩
    · split at hread
      · cases hread
      · exact h.named name text hread
  nonempty := by
    intro name text hread
    rw [FileSystem.read_rename hrename] at hread
    split at hread
    · exact h.nonempty base text hread
    · split at hread
      · cases hread
      · exact h.nonempty name text hread
  traced := by
    have hperm := FileSystem.everything_rename hrename (rotatedName_ne base date)
    have hsub : fs'.everything.Subperm s.fs.everything :=
      (List.sublist_append_left _ _).subperm.trans hperm.symm.subperm
    exact hsub.trans h.traced

/-- Rotation takes from the disk what it overwrites, and nothing else. -/
theorem rotateAtMidnight_spec (h : s.Consistent base) (today : Date) (renameOk : Bool) :
    (s.rotateAtMidnight base today renameOk).Consistent base ∧
    (s.rotateAtMidnight base today renameOk).written = s.written ∧
    s.fs.everything.Perm ((s.rotateAtMidnight base today renameOk).fs.everything ++
      s.overwritten base today renameOk) := by
  unfold rotateAtMidnight overwritten
  cases hdate : s.writer.openDate with
  | none => exact ⟨h, rfl, by simp⟩
  | some date =>
      by_cases hsame : date = today
      · simp only [hsame, ne_eq, not_true_eq_false, if_false, true_or, if_true, List.append_nil]
        exact ⟨h, trivial, .rfl⟩
      · cases renameOk with
        | false =>
            simp only [ne_eq, hsame, not_false_eq_true, if_true, or_true, List.append_nil]
            exact ⟨h.reset, rfl, .rfl⟩
        | true =>
            obtain ⟨file, hfile⟩ : ∃ file, s.writer.file = some file := by
              apply Option.ne_none_iff_exists'.mp
              intro hnone
              simp [h.dated hnone] at hdate
            have hrename : s.fs.rename base (rotatedName base date) =
                some (s.fs.moved base _ file (h.handle file hfile)) :=
              FileSystem.rename_eq_some_iff.mpr ⟨file, h.handle file hfile, rfl⟩
            simp only [ne_eq, hsame, not_false_eq_true, if_true, false_or, rotate, hrename,
              Option.getD_some, Bool.true_eq_false, if_false]
            exact ⟨h.renamed hrename, trivial,
              FileSystem.everything_rename hrename (rotatedName_ne base date)⟩

theorem openLogFile_spec (h : s.Consistent base) (today : Date) :
    let opened := s.openLogFile base today
    opened.2.fs.directory.lookup base = some opened.1 ∧ opened.2.writer.file = some opened.1 ∧
    opened.2.written = s.written ∧ opened.2.fs.everything = s.fs.everything ∧
    ∀ name, name ≠ base → opened.2.fs.read name = s.fs.read name := by
  intro opened
  cases hfile : s.writer.file with
  | some file =>
      have hopened : opened = (file, s) := by simp [opened, openLogFile, hfile]
      rw [hopened]
      exact ⟨h.handle file hfile, hfile, rfl, rfl, fun _ _ => rfl⟩
  | none =>
      have hopened : opened = ((s.fs.openCreate base).1, { s with
          fs := (s.fs.openCreate base).2
          writer := ⟨some (s.fs.openCreate base).1, some today⟩ }) := by
        simp [opened, openLogFile, hfile]
      rw [hopened]
      refine ⟨(s.fs.openCreate_spec base).1, rfl, rfl, s.fs.everything_openCreate base, ?_⟩
      intro name hname
      exact s.fs.read_openCreate_ne hname

theorem writeEvent_spec (h : s.Consistent base) (today : Date) (line : String) (renameOk : Bool) :
    (s.writeEvent base today line renameOk).Consistent base ∧
    (s.writeEvent base today line renameOk).written = s.written ++ [line] ∧
    ((s.writeEvent base today line renameOk).fs.everything ++
      s.overwritten base today renameOk).Perm (s.fs.everything ++ [line]) := by
  obtain ⟨hrotated, hwritten, hlost⟩ := rotateAtMidnight_spec h today renameOk
  obtain ⟨hbase, hhandle, hwritten', heverything, hothers⟩ := openLogFile_spec hrotated today
  unfold writeEvent
  generalize (s.rotateAtMidnight base today renameOk).openLogFile base today = opened at *
  obtain ⟨file, t⟩ := opened
  dsimp only at *
  have hperm : (t.fs.append file [line]).everything.Perm (t.fs.everything ++ [line]) :=
    FileSystem.everything_append hbase [line]
  have hread : ∀ name text, (t.fs.append file [line]).read name = some text →
      (name = base ∧ text = t.fs.contents file ++ [line]) ∨
        (s.rotateAtMidnight base today renameOk).fs.read name = some text := by
    intro name text htext
    rw [FileSystem.read_append hbase] at htext
    split at htext
    · rename_i hname
      exact .inl ⟨hname, (Option.some.inj htext).symm⟩
    · rename_i hname
      exact .inr ((hothers name hname).symm.trans htext)
  refine ⟨⟨?_, ?_, ?_, ?_, ?_⟩, ?_, ?_⟩
  · intro file' hfile'
    rw [hhandle, Option.some.injEq] at hfile'
    exact hfile' ▸ hbase
  · intro hnone
    simp [hhandle] at hnone
  · intro name text htext
    rcases hread name text htext with ⟨rfl, -⟩ | hold
    · exact .inl rfl
    · exact hrotated.named name text hold
  · intro name text htext
    rcases hread name text htext with ⟨-, rfl⟩ | hold
    · simp
    · exact hrotated.nonempty name text hold
  · rw [hwritten', hwritten]
    have htraced := hrotated.traced
    rw [← heverything, hwritten] at htraced
    exact hperm.subperm.trans (htraced.append (List.Subperm.refl _))
  · rw [hwritten', hwritten]
  · rw [heverything] at hperm
    refine (hperm.append_right _).trans ?_
    rw [List.append_assoc]
    refine (List.Perm.append_left _ List.perm_append_comm).trans ?_
    rw [← List.append_assoc]
    exact (hlost.append_right _).symm

theorem consistent_step {move : AuditMove} (h : s.Consistent base)
    (hstep : s.step base move = some s') : s'.Consistent base := by
  cases move with
  | writeEvent secs line renameOk =>
      obtain rfl := Option.some.inj hstep
      exact (writeEvent_spec h _ _ _).1
  | restart =>
      obtain rfl := Option.some.inj hstep
      exact h.reset

theorem rotatesToFresh_iff (h : s.Consistent base) (secs : UInt64) (line : String)
    (renameOk : Bool) :
    (AuditMove.writeEvent secs line renameOk).rotatesToFresh base s = true ↔
      s.overwritten base (epochToYmd secs) renameOk = [] := by
  unfold AuditMove.rotatesToFresh overwritten
  cases s.writer.openDate with
  | none => simp
  | some date =>
      have hnonempty : (s.fs.read (rotatedName base date)).getD [] = [] ↔
          s.fs.read (rotatedName base date) = none := by
        constructor
        · intro hnil
          cases hread : s.fs.read (rotatedName base date) with
          | none => rfl
          | some text =>
              rw [hread, Option.getD_some] at hnil
              exact absurd hnil (h.nonempty _ text hread)
        · intro hnone
          rw [hnone, Option.getD_none]
      by_cases hkeep : date = epochToYmd secs ∨ renameOk = false
      · rcases hkeep with rfl | rfl <;> simp
      · simp only [if_neg hkeep, hnonempty]
        rw [not_or] at hkeep
        simp [hkeep.1, hkeep.2]

/-- A step keeps every line on disk exactly when it does not rotate to a name that is
taken. -/
theorem retained_step_iff {move : AuditMove} (h : s.Consistent base) (hretained : s.Retained base)
    (hstep : s.step base move = some s') :
    s'.Retained base ↔ move.rotatesToFresh base s = true := by
  have hafter := consistent_step h hstep
  rw [retained_iff h] at hretained
  rw [retained_iff hafter]
  cases move with
  | restart =>
      obtain rfl := Option.some.inj hstep
      exact ⟨fun _ => rfl, fun _ => hretained⟩
  | writeEvent secs line renameOk =>
      obtain rfl := Option.some.inj hstep
      obtain ⟨-, hwritten, hperm⟩ := writeEvent_spec h (epochToYmd secs) line renameOk
      rw [rotatesToFresh_iff h, hwritten]
      constructor
      · intro hsub
        have hafterLength := hsub.length_le
        have hlength := hperm.length_eq
        have htraced := h.traced.length_le
        simp only [List.length_append, List.length_singleton] at hafterLength hlength
        apply List.eq_nil_of_length_eq_zero
        omega
      · intro hkept
        rw [hkept, List.append_nil] at hperm
        exact (hretained.append (List.Subperm.refl _)).trans hperm.symm.subperm

end AuditLog

end Rotation

/-- In a run every written line stays on disk, all the way, exactly when no rotation
goes to a name that has a file. -/
theorem auditLog_retains_iff (base : String) (moves : List AuditMove) (s : AuditLog)
    (hrun : FreeRun (AuditLog.step base) .start moves s) :
    HoldsAlong (AuditLog.step base) (AuditLog.Retained base) .start moves ↔
      Run (AuditLog.step base) (fun t move => move.rotatesToFresh base t = true) .start
        moves s := by
  apply hrun.holdsAlong_iff (I := AuditLog.Consistent base) (AuditLog.consistent_start base)
  · intro t move u ht hstep
    exact AuditLog.consistent_step ht hstep
  · exact (AuditLog.retained_iff (AuditLog.consistent_start base)).mpr (List.nil_subperm)
  · intro t move u ht hretained hstep
    exact AuditLog.retained_step_iff ht hretained hstep

def clockStepsBack : List AuditMove :=
  [.writeEvent 0 "first" true, .writeEvent 86400 "second" true, .writeEvent 0 "third" true,
    .writeEvent 86400 "fourth" true]

/-- The clock goes from one day to the next, back, and on again: the second rotation
of the first day replaces the file of the first. -/
theorem auditLog_loses_line :
    ∃ s, FreeRun (AuditLog.step "audit.jsonl") .start clockStepsBack s ∧
      ¬ s.Retained "audit.jsonl" ∧ "first" ∈ s.written ∧ "first" ∉ s.fs.everything := by
  have hexec : (exec (AuditLog.step "audit.jsonl") .start clockStepsBack).map
      (fun s => (s.written, s.fs.everything)) =
        some (["first", "second", "third", "fourth"], ["fourth", "third", "second"]) := by
    decide +kernel
  obtain ⟨s, hrun, hlost⟩ := exists_freeRun hexec
  simp only [Prod.mk.injEq] at hlost
  have hconsistent : s.Consistent "audit.jsonl" :=
    hrun.invariant (AuditLog.consistent_start _) fun _ _ _ ht _ hstep =>
      AuditLog.consistent_step ht hstep
  have hfirst : "first" ∈ s.written := by simp [hlost.1]
  have hgone : "first" ∉ s.fs.everything := by simp [hlost.2]
  refine ⟨s, hrun, ?_, hfirst, hgone⟩
  intro hretained
  exact hgone (((AuditLog.retained_iff hconsistent).mp hretained).subset hfirst)

def threeDays : List AuditMove :=
  [.writeEvent 0 "first" true, .restart, .writeEvent 86400 "second" false,
    .writeEvent 172800 "third" true]

theorem auditLog_retains_threeDays :
    HoldsAlong (AuditLog.step "audit.jsonl") (AuditLog.Retained "audit.jsonl") .start
      threeDays := by
  have hexec : (execGuarded (AuditLog.step "audit.jsonl")
      (fun t move => move.rotatesToFresh "audit.jsonl" t = true) .start threeDays).map
        (fun s => s.written.length) = some 3 := by
    decide +kernel
  obtain ⟨s, hrun, -⟩ := exists_run hexec
  exact (auditLog_retains_iff "audit.jsonl" _ s hrun.free).mpr hrun

end Seamless.Relay
