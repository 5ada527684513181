import Mathlib.Data.Prod.Lex
import Mathlib.Data.List.Pairwise
import Seamless.Library.Text
import Seamless.Relay.Calendar

/-!
The files of a single writer whose clock does not run backwards over dates: one file for
every day on which something was written, under its date, and the base file for the last.
-/

namespace Seamless.Relay

open Seamless.Library
open Seamless.Library.TransitionSystem
open Seamless.Library.Gregorian

section Names

/-- Dates are ordered by year, then month, then day. -/
def civilKey (date : CivilDate) : Int ×ₗ Nat ×ₗ Nat :=
  toLex (date.year, toLex (date.month, date.day))

def Date.key (date : Date) : Int ×ₗ Nat ×ₗ Nat := civilKey date.civil

theorem civilKey_le_next (date : CivilDate) : civilKey date ≤ civilKey date.next := by
  rw [CivilDate.next]
  split
  · exact Prod.Lex.toLex_le_toLex.mpr
      (.inr ⟨rfl, Prod.Lex.toLex_le_toLex.mpr (.inr ⟨rfl, Nat.le_succ _⟩)⟩)
  · split
    · exact Prod.Lex.toLex_le_toLex.mpr
        (.inr ⟨rfl, Prod.Lex.toLex_le_toLex.mpr (.inl (Nat.lt_succ_self _))⟩)
    · exact Prod.Lex.toLex_le_toLex.mpr (.inl (Int.lt_succ _))

theorem Date.key_injective : Function.Injective Date.key := by
  rintro ⟨year, month, day⟩ ⟨year', month', day'⟩ h
  have hparts := Prod.ext_iff.mp (congrArg ofLex h)
  have hrest := Prod.ext_iff.mp (congrArg ofLex hparts.2)
  rw [Date.mk.injEq]
  exact ⟨Int32.toInt_inj.mp hparts.1, UInt32.toNat_inj.mp hrest.1, UInt32.toNat_inj.mp hrest.2⟩

theorem last_separator_inj {sep : Char} {front front' back back' : List Char} (hback : sep ∉ back)
    (hback' : sep ∉ back') (h : front ++ sep :: back = front' ++ sep :: back') :
    front = front' ∧ back = back' := by
  have hsplit : ∀ {s t : List Char}, sep ∉ t →
      Text.splitAt sep (s ++ sep :: t).reverse = (t.reverse, some s.reverse) := by
    intro s t ht
    rw [Text.splitAt_eq_some_iff]
    simpa using ht
  have hparts := (hsplit hback).symm.trans ((congrArg _ (congrArg _ h)).trans (hsplit hback'))
  simp only [Prod.mk.injEq, Option.some.injEq, List.reverse_inj] at hparts
  exact ⟨hparts.2, hparts.1⟩

/-- The digits of a number behind some zeros. -/
def zeroPadded (zeros n : Nat) : List Char := List.replicate zeros '0' ++ Nat.toDigits 10 n

theorem isDigit_of_mem_zeroPadded {zeros n : Nat} {c : Char} (h : c ∈ zeroPadded zeros n) :
    c.isDigit = true := by
  rcases List.mem_append.mp h with hzero | hdigit
  · rw [List.eq_of_mem_replicate hzero]
    rfl
  · exact Nat.isDigit_of_mem_toDigits (by decide) (by decide) hdigit

theorem dash_notMem_zeroPadded (zeros n : Nat) : '-' ∉ zeroPadded zeros n := by
  intro hdash
  exact absurd (isDigit_of_mem_zeroPadded hdash) (by decide)

theorem zeroPadded_inj {zeros zeros' n n' : Nat} (h : zeroPadded zeros n = zeroPadded zeros' n') :
    n = n' := by
  have hvalue : ∀ z m, Nat.ofDigitChars 10 (zeroPadded z m) 0 = m := by
    intro z m
    rw [zeroPadded, Nat.ofDigitChars_append, Nat.ofDigitChars_replicate_zero, Nat.mul_zero,
      Nat.ofDigitChars_ten_toDigits]
  rw [← hvalue zeros n, h, hvalue]

theorem toList_padded (width : Nat) (n : Int) : ∃ zeros, (padded width n).toList =
    (if n < 0 then ['-'] else []) ++ zeroPadded zeros n.natAbs := by
  refine ⟨width - ((if n < 0 then "-" else "").length + (toString n.natAbs).length), ?_⟩
  have hsign : (if n < 0 then "-" else "").toList = if n < 0 then ['-'] else [] := by
    split <;> rfl
  have hdigits : (toString n.natAbs).toList = Nat.toDigits 10 n.natAbs := String.toList_ofList
  rw [padded, String.toList_append, String.toList_append, String.toList_ofList, hsign, hdigits,
    List.append_assoc, zeroPadded]

theorem toList_padded_natCast (width n : Nat) :
    ∃ zeros, (padded width n).toList = zeroPadded zeros n := by
  obtain ⟨zeros, h⟩ := toList_padded width n
  rw [if_neg (by omega), List.nil_append, Int.natAbs_natCast] at h
  exact ⟨zeros, h⟩

theorem padded_inj {width : Nat} {n n' : Int}
    (h : (padded width n).toList = (padded width n').toList) : n = n' := by
  obtain ⟨zeros, hn⟩ := toList_padded width n
  obtain ⟨zeros', hn'⟩ := toList_padded width n'
  rw [hn, hn'] at h
  have hsign : n < 0 ↔ n' < 0 := by
    have hdash : '-' ∈ (if n < 0 then ['-'] else []) ++ zeroPadded zeros n.natAbs ↔
        '-' ∈ (if n' < 0 then ['-'] else []) ++ zeroPadded zeros' n'.natAbs := by rw [h]
    simpa [dash_notMem_zeroPadded] using hdash
  by_cases hneg : n < 0
  · rw [if_pos hneg, if_pos (hsign.mp hneg), List.append_cancel_left_eq] at h
    have habs := zeroPadded_inj h
    omega
  · rw [if_neg hneg, if_neg (mt hsign.mpr hneg), List.nil_append, List.nil_append] at h
    have habs := zeroPadded_inj h
    omega

theorem rotatedName_injective (base : String) : Function.Injective (rotatedName base) := by
  intro date date' h
  have hchars := congrArg String.toList h
  obtain ⟨_, hday⟩ := toList_padded_natCast 2 date.day.toNat
  obtain ⟨_, hday'⟩ := toList_padded_natCast 2 date'.day.toNat
  obtain ⟨_, hmonth⟩ := toList_padded_natCast 2 date.month.toNat
  obtain ⟨_, hmonth'⟩ := toList_padded_natCast 2 date'.month.toNat
  have hdash : "-".toList = ['-'] := rfl
  simp only [rotatedName, String.toList_append, hdash, hday, hday', hmonth, hmonth',
    List.append_assoc, List.singleton_append] at hchars
  simp only [← List.append_assoc] at hchars
  obtain ⟨hfront, hdays⟩ := last_separator_inj (dash_notMem_zeroPadded _ _)
    (dash_notMem_zeroPadded _ _) hchars
  obtain ⟨hyears, hmonths⟩ := last_separator_inj (dash_notMem_zeroPadded _ _)
    (dash_notMem_zeroPadded _ _) hfront
  have hyear : date.year.toInt = date'.year.toInt := padded_inj (by simpa using hyears)
  apply Date.key_injective
  rw [Date.key, Date.civil, hyear, zeroPadded_inj hdays, zeroPadded_inj hmonths]
  rfl

end Names

/-- A time on the clock and the JSON line of the event that is written at it. -/
structure AuditEvent where
  secs : UInt64
  line : String

namespace AuditEvent

def date (event : AuditEvent) : Date := epochToYmd event.secs

/-- The call of `write_event` for the event, every file operation of which succeeds. -/
def write (event : AuditEvent) : AuditMove := .writeEvent event.secs event.line true

/-- The lines of a day in the order of its events. -/
def linesOn (date : Date) (events : List AuditEvent) : List String :=
  (events.filter fun event => event.date = date).map line

theorem linesOn_append (date : Date) (events : List AuditEvent) (event : AuditEvent) :
    linesOn date (events ++ [event]) =
      linesOn date events ++ if event.date = date then [event.line] else [] := by
  rw [linesOn, List.filter_append, List.map_append]
  split <;> simp_all [linesOn]

theorem linesOn_append_of_ne {date : Date} {event : AuditEvent} (h : event.date ≠ date)
    (events : List AuditEvent) : linesOn date (events ++ [event]) = linesOn date events := by
  rw [linesOn_append, if_neg h, List.append_nil]

theorem linesOn_eq_nil {date : Date} {events : List AuditEvent}
    (h : ∀ event ∈ events, event.date ≠ date) : linesOn date events = [] := by
  rw [linesOn, List.filter_eq_nil_iff.mpr (by simpa using h), List.map_nil]

/-- The dates of the events do not go backwards. -/
def InOrder (events : List AuditEvent) : Prop :=
  events.Pairwise fun event later => event.date.key ≤ later.date.key

theorem InOrder.initial {events : List AuditEvent} {event : AuditEvent}
    (h : InOrder (events ++ [event])) : InOrder events :=
  (List.pairwise_append.mp h).1

theorem InOrder.date_le {events : List AuditEvent} {event later : AuditEvent}
    (h : InOrder (events ++ [later])) (hmem : event ∈ events) :
    event.date.key ≤ later.date.key :=
  (List.pairwise_append.mp h).2.2 event hmem later List.mem_cons_self

theorem InOrder.ne_date {events : List AuditEvent} {event now next : AuditEvent}
    (h : InOrder (events ++ [now] ++ [next])) (hmem : event ∈ events ++ [now])
    (hleft : now.date ≠ next.date) : event.date ≠ next.date := by
  intro hsame
  have hnow : now.date.key ≤ next.date.key := h.date_le (by simp)
  rcases List.mem_append.mp hmem with hbefore | hlast
  · have hevent : event.date.key ≤ now.date.key := h.initial.date_le hbefore
    rw [hsame] at hevent
    exact hleft (Date.key_injective (le_antisymm hnow hevent))
  · rw [List.mem_singleton.mp hlast] at hsame
    exact hleft hsame

theorem inOrder_of_days {events : List AuditEvent}
    (hdays : events.Pairwise fun event later => event.secs.toNat / 86400 ≤ later.secs.toNat / 86400)
    (hfits : ∀ event ∈ events, YearFits event.secs) : InOrder events := by
  have hkeys : ∀ n n', n ≤ n' → civilKey (dateOfDay n) ≤ civilKey (dateOfDay n') := by
    intro n n' hle
    induction hle with
    | refl => exact le_rfl
    | @step n' _ ih =>
        rw [dateOfDay_succ]
        exact ih.trans (civilKey_le_next _)
  apply hdays.imp_of_mem
  intro event later hevent hlater hle
  have hkey := hkeys _ _ hle
  rw [← civil_epochToYmd (hfits event hevent), ← civil_epochToYmd (hfits later hlater)] at hkey
  exact hkey

end AuditEvent

open AuditEvent

namespace AuditLog

/-- The directory is that of a writer that wrote `now` last, and `before` earlier. -/
structure PartitionedByDay (base : String) (before : List AuditEvent) (now : AuditEvent)
    (fs : FileSystem String String) : Prop where
  current : fs.read base = some (linesOn now.date (before ++ [now]))
  earlier : ∀ event ∈ before, event.date ≠ now.date →
    fs.read (rotatedName base event.date) = some (linesOn event.date (before ++ [now]))
  nothingElse : ∀ name, fs.read name ≠ none →
    name = base ∨ ∃ event ∈ before, event.date ≠ now.date ∧ name = rotatedName base event.date

/-- The base file is open since `date`. -/
def OpenSince (base : String) (date : Date) (s : AuditLog) : Prop :=
  ∃ file, s.writer = ⟨some file, some date⟩ ∧ s.fs.directory.lookup base = some file

section Writing

variable {base : String} {today : Date} {s : AuditLog}

theorem writeEvent_sameDay (h : s.OpenSince base today) (line : String) (renameOk : Bool) :
    (s.writeEvent base today line renameOk).OpenSince base today ∧
    ∀ name, (s.writeEvent base today line renameOk).fs.read name =
      if name = base then (s.fs.read base).map (· ++ [line]) else s.fs.read name := by
  obtain ⟨file, hwriter, hbase⟩ := h
  have hopened : (s.rotateAtMidnight base today renameOk).openLogFile base today = (file, s) := by
    simp [rotateAtMidnight, openLogFile, hwriter]
  rw [writeEvent, hopened]
  refine ⟨⟨file, hwriter, hbase⟩, ?_⟩
  intro name
  rw [FileSystem.read_append hbase, FileSystem.read_of_lookup hbase, Option.map_some]

theorem writeEvent_opens {t : AuditLog} {renameOk : Bool}
    (hrotated : s.rotateAtMidnight base today renameOk = t) (hclosed : t.writer.file = none)
    (hnone : t.fs.read base = none) (line : String) :
    (s.writeEvent base today line renameOk).OpenSince base today ∧
    ∀ name, (s.writeEvent base today line renameOk).fs.read name =
      if name = base then some [line] else t.fs.read name := by
  obtain ⟨hopened, -, -⟩ := t.fs.openCreate_spec base
  have hempty := FileSystem.contents_openCreate_of_free hnone
  rw [writeEvent, hrotated, openLogFile, hclosed]
  refine ⟨⟨_, rfl, hopened⟩, ?_⟩
  intro name
  rw [FileSystem.read_append hopened, hempty, List.nil_append]
  split
  · rfl
  · rename_i hname
    exact t.fs.read_openCreate_ne hname

theorem writeEvent_nextDay {date : Date} (h : s.OpenSince base date) (hother : date ≠ today)
    (line : String) :
    (s.writeEvent base today line true).OpenSince base today ∧
    ∀ name, (s.writeEvent base today line true).fs.read name =
      if name = base then some [line]
      else if name = rotatedName base date then s.fs.read base else s.fs.read name := by
  obtain ⟨file, hwriter, hbase⟩ := h
  obtain ⟨fs', hrename⟩ := FileSystem.exists_rename (FileSystem.read_of_lookup hbase)
    (rotatedName base date)
  have hrotated : s.rotateAtMidnight base today true =
      { s with fs := fs', writer := ⟨none, none⟩ } := by
    simp [rotateAtMidnight, rotate, hwriter, hother, hrename]
  have hread := FileSystem.read_rename hrename
  have hgone : fs'.read base = none := by
    rw [hread, if_neg (rotatedName_ne base date), if_pos rfl]
  obtain ⟨hopened, hwritten⟩ := writeEvent_opens hrotated rfl hgone line
  refine ⟨hopened, ?_⟩
  intro name
  rw [hwritten]
  split
  · rfl
  · rename_i hname
    rw [hread, if_neg hname]

end Writing

section Days

variable {base : String} {before : List AuditEvent} {now next : AuditEvent} {s s' : AuditLog}

theorem partitioned_first (base : String) (now : AuditEvent) :
    (start.writeEvent base now.date now.line true).OpenSince base now.date ∧
    PartitionedByDay base [] now (start.writeEvent base now.date now.line true).fs := by
  obtain ⟨hopened, hread⟩ := writeEvent_opens
    (rfl : start.rotateAtMidnight base now.date true = start) rfl rfl now.line
  refine ⟨hopened, ?_, by simp, ?_⟩
  · rw [hread, if_pos rfl]
    simp [linesOn]
  · intro name hname
    rw [hread] at hname
    split at hname
    · rename_i hbase
      exact .inl hbase
    · exact absurd rfl hname

theorem PartitionedByDay.read_rotatedName (h : PartitionedByDay base before now s.fs) :
    s.fs.read (rotatedName base now.date) = none := by
  by_contra hread
  rcases h.nothingElse _ hread with hbase | ⟨event, -, hdate, hname⟩
  · exact rotatedName_ne base now.date hbase.symm
  · exact hdate (rotatedName_injective base hname).symm

theorem PartitionedByDay.sameDay (h : PartitionedByDay base before now s.fs)
    (hopen : s.OpenSince base now.date) (hsame : now.date = next.date) :
    (s.writeEvent base next.date next.line true).OpenSince base next.date ∧
    PartitionedByDay base (before ++ [now]) next
      (s.writeEvent base next.date next.line true).fs := by
  rw [hsame] at hopen
  obtain ⟨hopen', hread⟩ := writeEvent_sameDay hopen next.line true
  refine ⟨hopen', ?_, ?_, ?_⟩
  · rw [hread, if_pos rfl, h.current, Option.map_some, hsame, linesOn_append _ _ next,
      if_pos rfl]
  · intro event hmem hdate
    rw [hread, if_neg (rotatedName_ne base event.date).symm,
      linesOn_append_of_ne (Ne.symm hdate)]
    rcases List.mem_append.mp hmem with hbefore | hlast
    · exact h.earlier event hbefore (hsame ▸ hdate)
    · rw [List.mem_singleton.mp hlast] at hdate
      exact absurd hsame hdate
  · intro name hname
    rw [hread] at hname
    split at hname
    · rename_i hbase
      exact .inl hbase
    · rcases h.nothingElse name hname with hbase | ⟨event, hmem, hdate, hrotated⟩
      · exact .inl hbase
      · exact .inr ⟨event, List.mem_append_left _ hmem, hsame ▸ hdate, hrotated⟩

theorem PartitionedByDay.nextDay (h : PartitionedByDay base before now s.fs)
    (hopen : s.OpenSince base now.date) (horder : InOrder (before ++ [now] ++ [next]))
    (hother : now.date ≠ next.date) :
    (s.writeEvent base next.date next.line true).OpenSince base next.date ∧
    PartitionedByDay base (before ++ [now]) next
      (s.writeEvent base next.date next.line true).fs := by
  obtain ⟨hopen', hread⟩ := writeEvent_nextDay hopen hother next.line
  have hnever : ∀ event ∈ before ++ [now], event.date ≠ next.date := by
    intro event hmem
    exact horder.ne_date hmem hother
  refine ⟨hopen', ?_, ?_, ?_⟩
  · rw [hread, if_pos rfl, linesOn_append, if_pos rfl, linesOn_eq_nil hnever, List.nil_append]
  · intro event hmem hdate
    rw [hread, if_neg (rotatedName_ne base event.date).symm, linesOn_append_of_ne (Ne.symm hdate)]
    by_cases hnow : event.date = now.date
    · rw [hnow, if_pos rfl, h.current]
    · rw [if_neg fun hname => hnow (rotatedName_injective base hname)]
      rcases List.mem_append.mp hmem with hbefore | hlast
      · exact h.earlier event hbefore hnow
      · exact absurd (congrArg AuditEvent.date (List.mem_singleton.mp hlast)) hnow
  · intro name hname
    rw [hread] at hname
    split at hname
    · rename_i hbase
      exact .inl hbase
    · split at hname
      · rename_i hrotated
        exact .inr ⟨now, by simp, hother, hrotated⟩
      · rcases h.nothingElse name hname with hbase | ⟨event, hmem, -, hrotated⟩
        · exact .inl hbase
        · have hearlier := List.mem_append_left [now] hmem
          exact .inr ⟨event, hearlier, hnever event hearlier, hrotated⟩

/-- The events `before ++ [now]` are written one after another, no rename replaces a
file, and the files are those of their days. -/
theorem run_partitioned (base : String) (horder : InOrder (before ++ [now])) :
    ∃ s, Run (step base) (fun s move => move.rotatesToFresh base s = true) start
        ((before ++ [now]).map write) s ∧
      s.OpenSince base now.date ∧ PartitionedByDay base before now s.fs := by
  induction before using List.reverseRecOn generalizing now with
  | nil =>
      obtain ⟨hopen, hparts⟩ := partitioned_first base now
      exact ⟨_, .snoc .nil rfl rfl, hopen, hparts⟩
  | append_singleton before last ih =>
      obtain ⟨s, hrun, hopen, hparts⟩ := ih horder.initial
      have hfresh : now.write.rotatesToFresh base s = true := by
        obtain ⟨file, hwriter, -⟩ := hopen
        simp [write, AuditMove.rotatesToFresh, hwriter, hparts.read_rotatedName]
      refine ⟨s.writeEvent base now.date now.line true, ?_, ?_⟩
      · rw [List.map_append]
        exact .snoc hrun hfresh rfl
      · by_cases hsame : last.date = now.date
        · exact hparts.sameDay hopen hsame
        · exact hparts.nextDay hopen horder hsame

end Days

end AuditLog

/-- After each write every day has its own file, and no rename on the way replaced one. -/
theorem rotation_partitions_by_day (base : String) {events : List AuditEvent}
    (horder : InOrder events) :
    (∃ s, Run (AuditLog.step base) (fun s move => move.rotatesToFresh base s = true) .start
      (events.map write) s) ∧
    (∀ before now, before ++ [now] <+: events →
      ∃ s, exec (AuditLog.step base) .start ((before ++ [now]).map write) = some s ∧
        AuditLog.PartitionedByDay base before now s.fs) ∧
    Function.Injective (rotatedName base) := by
  refine ⟨?_, ?_, rotatedName_injective base⟩
  · rcases List.eq_nil_or_concat events with rfl | ⟨before, now, rfl⟩
    · exact ⟨_, .nil⟩
    · rw [List.concat_eq_append] at horder ⊢
      obtain ⟨s, hrun, -, -⟩ := AuditLog.run_partitioned base horder
      exact ⟨s, hrun⟩
  · intro before now hprefix
    obtain ⟨s, hrun, -, hparts⟩ := AuditLog.run_partitioned base
      (List.Pairwise.sublist hprefix.sublist horder)
    exact ⟨s, hrun.exec, hparts⟩

/-- Two events of the last day of 2023, then one of the leap day of 2024. -/
def newYearEvents : List AuditEvent :=
  [⟨1704023999, "a"⟩, ⟨1704067199, "b"⟩, ⟨1709164800, "c"⟩]

theorem rotation_partitions_newYear :
    InOrder newYearEvents ∧ ∃ s,
      exec (AuditLog.step "audit.jsonl") .start (newYearEvents.map write) = some s ∧
        s.fs.read "audit.jsonl" = some ["c"] ∧
        s.fs.read "audit.jsonl.2023-12-31" = some ["a", "b"] := by
  have horder : InOrder newYearEvents := by
    simp only [InOrder, newYearEvents, List.pairwise_cons]
    decide +kernel
  obtain ⟨-, hfiles, -⟩ := rotation_partitions_by_day "audit.jsonl" horder
  obtain ⟨s, hexec, hcurrent, hearlier, -⟩ := hfiles [⟨1704023999, "a"⟩, ⟨1704067199, "b"⟩]
    ⟨1709164800, "c"⟩ List.prefix_rfl
  have hold := hearlier ⟨1704023999, "a"⟩ List.mem_cons_self (by decide +kernel)
  refine ⟨horder, s, hexec, ?_, ?_⟩
  · rw [hcurrent]
    decide +kernel
  · rw [show "audit.jsonl.2023-12-31" = rotatedName "audit.jsonl" (epochToYmd 1704023999) from by
      decide +kernel]
    exact hold.trans (by decide +kernel)

end Seamless.Relay
