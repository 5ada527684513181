import Mathlib.Order.Interval.Finset.Nat
import Mathlib.Tactic.IntervalCases

/-!
The proleptic Gregorian calendar: dates, their successors, and the number of a day
counted from 1970-01-01. A year that starts in March ends with its leap day, so the
number of a date is simplest counted from the first of March before it.
-/

namespace Seamless.Library.Gregorian

def isLeap (year : Int) : Bool := year % 4 = 0 && (year % 100 ≠ 0 || year % 400 = 0)

def monthLength (leap : Bool) : Nat → Nat
  | 2 => if leap then 29 else 28
  | 4 => 30
  | 6 => 30
  | 9 => 30
  | 11 => 30
  | _ => 31

@[ext] structure CivilDate where
  year : Int
  month : Nat
  day : Nat
  deriving Repr, DecidableEq

namespace CivilDate

/-- The length of the month that the date is in. -/
def lastDay (date : CivilDate) : Nat := monthLength (isLeap date.year) date.month

structure Valid (date : CivilDate) : Prop where
  month_pos : 1 ≤ date.month
  month_le : date.month ≤ 12
  day_pos : 1 ≤ date.day
  day_le : date.day ≤ date.lastDay

def next (date : CivilDate) : CivilDate :=
  if date.day < date.lastDay then ⟨date.year, date.month, date.day + 1⟩
  else if date.month < 12 then ⟨date.year, date.month + 1, 1⟩
  else ⟨date.year + 1, 1, 1⟩

end CivilDate

def daysBeforeMonth (leap : Bool) (month : Nat) : Nat :=
  ((List.range (month - 1)).map fun i => monthLength leap (i + 1)).sum

/-- The leap years from year 1 up to the year before. -/
def leapYearsBefore (year : Int) : Int :=
  (year - 1) / 4 - (year - 1) / 100 + (year - 1) / 400

def daysBeforeYear (year : Int) : Int :=
  365 * (year - 1970) + (leapYearsBefore year - leapYearsBefore 1970)

/-- Days since 1970-01-01. -/
def CivilDate.dayNumber (date : CivilDate) : Int :=
  daysBeforeYear date.year + daysBeforeMonth (isLeap date.year) date.month + (date.day - 1)

def yearLength (leap : Bool) : Nat := if leap then 366 else 365

/-- The date after that many days from 1970-01-01 on. -/
def dateOfDay (n : Nat) : CivilDate := CivilDate.next^[n] ⟨1970, 1, 1⟩

section Counting

variable {date date' : CivilDate} {year year' : Int}

theorem isLeap_iff : isLeap year = true ↔ year % 4 = 0 ∧ (year % 100 ≠ 0 ∨ year % 400 = 0) := by
  simp [isLeap]

theorem leapYearsBefore_succ (year : Int) :
    leapYearsBefore (year + 1) = leapYearsBefore year + if isLeap year then 1 else 0 := by
  unfold leapYearsBefore
  split
  · rename_i hleap
    rw [isLeap_iff] at hleap
    omega
  · rename_i hleap
    rw [isLeap_iff] at hleap
    omega

theorem daysBeforeYear_succ (year : Int) :
    daysBeforeYear (year + 1) = daysBeforeYear year + yearLength (isLeap year) := by
  unfold daysBeforeYear yearLength
  rw [leapYearsBefore_succ]
  split <;> omega

theorem daysBeforeYear_le (h : year ≤ year') : daysBeforeYear year ≤ daysBeforeYear year' := by
  induction year', h using Int.leInduction with
  | base => exact le_rfl
  | succ year' _ ih =>
      rw [daysBeforeYear_succ]
      omega

theorem daysBeforeMonth_succ {leap : Bool} {month : Nat} (h : 1 ≤ month) :
    daysBeforeMonth leap (month + 1) = daysBeforeMonth leap month + monthLength leap month := by
  obtain ⟨m, rfl⟩ : ∃ m, month = m + 1 := ⟨month - 1, by omega⟩
  simp [daysBeforeMonth, List.range_succ]

theorem daysBeforeMonth_one (leap : Bool) : daysBeforeMonth leap 1 = 0 := rfl

theorem daysBeforeMonth_december (leap : Bool) :
    daysBeforeMonth leap 12 + monthLength leap 12 = yearLength leap := by
  cases leap with
  | true => rfl
  | false => rfl

theorem daysBeforeMonth_le {leap : Bool} {month month' : Nat} (hpos : 1 ≤ month)
    (h : month ≤ month') : daysBeforeMonth leap month ≤ daysBeforeMonth leap month' := by
  induction month', h using Nat.le_induction with
  | base => exact le_rfl
  | succ month' hle ih =>
      rw [daysBeforeMonth_succ (by omega)]
      omega

theorem monthLength_pos (leap : Bool) (month : Nat) : 1 ≤ monthLength leap month := by
  unfold monthLength
  split <;> (try split) <;> omega

theorem monthLength_le (leap : Bool) (month : Nat) : monthLength leap month ≤ 31 := by
  unfold monthLength
  split <;> (try split) <;> omega

namespace CivilDate

theorem dayNumber_epoch : dayNumber ⟨1970, 1, 1⟩ = 0 := by decide

theorem valid_next (h : date.Valid) : date.next.Valid := by
  obtain ⟨hmonth, hle, hday, hlast⟩ := h
  unfold next
  split
  · rename_i hlt
    exact ⟨hmonth, hle, by simp, hlt⟩
  · split
    · rename_i hmonth'
      exact ⟨by simp, hmonth', le_rfl, monthLength_pos _ _⟩
    · exact ⟨le_rfl, by simp, le_rfl, monthLength_pos _ _⟩

/-- The successor of a date has the next number. -/
theorem dayNumber_next (h : date.Valid) : date.next.dayNumber = date.dayNumber + 1 := by
  obtain ⟨hmonth, hle, hday, hlast⟩ := h
  unfold next
  split
  · simp only [dayNumber]
    omega
  · rename_i hlt
    have hend : date.day = monthLength (isLeap date.year) date.month := by
      rw [lastDay] at hlt hlast
      omega
    split
    · simp only [dayNumber, daysBeforeMonth_succ hmonth]
      omega
    · have hdecember : date.month = 12 := by omega
      have hyear := daysBeforeMonth_december (isLeap date.year)
      rw [hdecember] at hend
      simp only [dayNumber, daysBeforeYear_succ, daysBeforeMonth_one, hdecember]
      omega

theorem dayNumber_lt (h : date.Valid) : date.dayNumber < daysBeforeYear date.year +
    (daysBeforeMonth (isLeap date.year) (date.month + 1) : Nat) := by
  have hlast := h.day_le
  rw [lastDay] at hlast
  rw [daysBeforeMonth_succ h.month_pos, dayNumber]
  omega

theorem dayNumber_ge (h : date.Valid) : daysBeforeYear date.year +
    (daysBeforeMonth (isLeap date.year) date.month : Nat) ≤ date.dayNumber := by
  have hday := h.day_pos
  rw [dayNumber]
  omega

theorem dayNumber_lt_year (h : date.Valid) :
    date.dayNumber < daysBeforeYear (date.year + 1) := by
  have hlt := dayNumber_lt h
  have hmonth : daysBeforeMonth (isLeap date.year) (date.month + 1) ≤
      daysBeforeMonth (isLeap date.year) 13 :=
    daysBeforeMonth_le (by omega) (Nat.succ_le_succ h.month_le)
  have hyear : daysBeforeMonth (isLeap date.year) 13 = yearLength (isLeap date.year) := by
    rw [daysBeforeMonth_succ (by decide), daysBeforeMonth_december]
  rw [daysBeforeYear_succ]
  omega

theorem daysBeforeYear_le_dayNumber (h : date.Valid) :
    daysBeforeYear date.year ≤ date.dayNumber := by
  have hge := dayNumber_ge h
  omega

theorem year_le_of_dayNumber_le (h : date.Valid) (h' : date'.Valid)
    (hle : date.dayNumber ≤ date'.dayNumber) : date.year ≤ date'.year := by
  by_contra hlt
  have hyear : daysBeforeYear (date'.year + 1) ≤ daysBeforeYear date.year :=
    daysBeforeYear_le (by omega)
  have hbefore := dayNumber_lt_year h'
  have hafter := daysBeforeYear_le_dayNumber h
  omega

theorem dayNumber_injective (h : date.Valid) (h' : date'.Valid)
    (heq : date.dayNumber = date'.dayNumber) : date = date' := by
  have hyear : date.year = date'.year :=
    le_antisymm (year_le_of_dayNumber_le h h' heq.le) (year_le_of_dayNumber_le h' h heq.ge)
  have hmonth : ∀ {d d' : CivilDate}, d.Valid → d'.Valid → d.dayNumber = d'.dayNumber →
      d.year = d'.year → d.month ≤ d'.month := by
    intro d d' hd hd' hnumber hyear
    by_contra hlt
    have hle : daysBeforeMonth (isLeap d.year) (d'.month + 1) ≤
        daysBeforeMonth (isLeap d.year) d.month := daysBeforeMonth_le (by omega) (by omega)
    have hbefore := dayNumber_lt hd'
    have hafter := dayNumber_ge hd
    rw [← hyear] at hbefore
    omega
  have hmonth' : date.month = date'.month :=
    le_antisymm (hmonth h h' heq hyear) (hmonth h' h heq.symm hyear.symm)
  have hday : date.day = date'.day := by
    have hpos := h.day_pos
    have hpos' := h'.day_pos
    rw [dayNumber, dayNumber, hyear, hmonth'] at heq
    omega
  exact CivilDate.ext hyear hmonth' hday

end CivilDate

theorem dateOfDay_succ (n : Nat) : dateOfDay (n + 1) = (dateOfDay n).next :=
  Function.iterate_succ_apply' _ _ _

theorem valid_dateOfDay (n : Nat) : (dateOfDay n).Valid := by
  induction n with
  | zero => exact ⟨by decide, by decide, by decide, by decide⟩
  | succ n ih =>
      rw [dateOfDay_succ]
      exact CivilDate.valid_next ih

theorem dayNumber_dateOfDay (n : Nat) : (dateOfDay n).dayNumber = n := by
  induction n with
  | zero => exact CivilDate.dayNumber_epoch
  | succ n ih =>
      rw [dateOfDay_succ, CivilDate.dayNumber_next (valid_dateOfDay n), ih]
      rfl

theorem eq_dateOfDay {n : Nat} (h : date.Valid) (hnumber : date.dayNumber = n) :
    date = dateOfDay n :=
  CivilDate.dayNumber_injective h (valid_dateOfDay n) (hnumber.trans (dayNumber_dateOfDay n).symm)

theorem year_dateOfDay_le {n n' : Nat} (h : n ≤ n') : (dateOfDay n).year ≤ (dateOfDay n').year := by
  apply CivilDate.year_le_of_dayNumber_le (valid_dateOfDay n) (valid_dateOfDay n')
  rw [dayNumber_dateOfDay, dayNumber_dateOfDay]
  exact Int.ofNat_le.mpr h

end Counting

section March

/-- The first of March of a year. -/
def marchDays (year : Int) : Int := 365 * year + year / 4 - year / 100 + year / 400 - 719468

namespace CivilDate

/-- The year that the date is in when years start in March, and its month there. -/
def marchYear (date : CivilDate) : Int := if date.month ≤ 2 then date.year - 1 else date.year

def marchMonth (date : CivilDate) : Nat := (date.month + 9) % 12

end CivilDate

theorem daysBeforeMonth_march (leap : Bool) {month : Nat} (hpos : 1 ≤ month)
    (hle : month ≤ 12) :
    daysBeforeMonth leap month + (if month ≤ 2 then 306 else 0) =
      (if month ≤ 2 then 0 else yearLength leap - 306) + (153 * ((month + 9) % 12) + 2) / 5 := by
  have htable : ∀ leap : Bool, ∀ month ∈ Finset.Icc 1 12,
      daysBeforeMonth leap month + (if month ≤ 2 then 306 else 0) =
        (if month ≤ 2 then 0 else yearLength leap - 306) +
          (153 * ((month + 9) % 12) + 2) / 5 := by decide
  exact htable leap month (Finset.mem_Icc.mpr ⟨hpos, hle⟩)

theorem marchDays_eq (year : Int) :
    marchDays year = daysBeforeYear (year + 1) - 306 := by
  unfold marchDays daysBeforeYear leapYearsBefore
  omega

theorem CivilDate.dayNumber_eq_march {date : CivilDate} (hpos : 1 ≤ date.month)
    (hle : date.month ≤ 12) : date.dayNumber =
      marchDays date.marchYear + ((153 * date.marchMonth + 2) / 5 : Nat) + (date.day - 1) := by
  have htable := daysBeforeMonth_march (isLeap date.year) hpos hle
  have hlength : 306 ≤ yearLength (isLeap date.year) := by
    unfold yearLength
    split <;> omega
  rw [dayNumber, marchYear, marchMonth, marchDays_eq]
  by_cases hmonth : date.month ≤ 2
  · rw [if_pos hmonth, if_pos hmonth] at htable
    rw [if_pos hmonth, sub_add_cancel]
    omega
  · rw [if_neg hmonth, if_neg hmonth] at htable
    rw [if_neg hmonth, daysBeforeYear_succ]
    omega

/-- The day `doe` of a 400-year era that starts in March, less the leap days before it. -/
def leaplessDay (doe : Nat) : Int := doe - doe / 1460 + doe / 36524 - doe / 146096

/-- The day of the era on which its year `yoe` starts. -/
def yearStart (yoe : Nat) : Nat := 365 * yoe + yoe / 4 - yoe / 100

theorem leaplessDay_le {doe doe' : Nat} (h : doe ≤ doe') : leaplessDay doe ≤ leaplessDay doe' := by
  induction doe', h using Nat.le_induction with
  | base => exact le_rfl
  | succ doe' _ ih =>
      unfold leaplessDay at ih ⊢
      push_cast
      omega

theorem leaplessDay_yearStart {yoe : Nat} (h : yoe < 400) :
    365 * (yoe : Int) ≤ leaplessDay (yearStart yoe) ∧
      (0 < yoe → leaplessDay (yearStart yoe - 1) < 365 * (yoe : Int)) := by
  have htable : ∀ yoe ∈ Finset.range 400, 365 * (yoe : Int) ≤ leaplessDay (yearStart yoe) ∧
      (0 < yoe → leaplessDay (yearStart yoe - 1) < 365 * (yoe : Int)) := by decide +kernel
  exact htable yoe (Finset.mem_range.mpr h)

theorem yearOfEra_spec {doe yoe : Nat} (hdoe : doe < 146097)
    (hyoe : (yoe : Int) = leaplessDay doe / 365) : yoe < 400 ∧ yearStart yoe ≤ doe ∧
      doe < yearStart (yoe + 1) + (if yoe = 399 then 1 else 0) := by
  have hlt : yoe < 400 := by
    unfold leaplessDay at hyoe
    omega
  have hlast : yearStart (399 + 1) = 146096 := by decide
  refine ⟨hlt, ?_, ?_⟩
  · by_contra hbefore
    have hpos : 0 < yoe := by
      rcases Nat.eq_zero_or_pos yoe with rfl | hpos
      · simp [yearStart] at hbefore
      · exact hpos
    have hstart := (leaplessDay_yearStart hlt).2 hpos
    have hmono : leaplessDay doe ≤ leaplessDay (yearStart yoe - 1) := leaplessDay_le (by omega)
    omega
  · split
    · rename_i hyear
      rw [hyear, hlast]
      omega
    · by_contra hafter
      have hstart := (leaplessDay_yearStart (show yoe + 1 < 400 by omega)).1
      have hmono : leaplessDay (yearStart (yoe + 1)) ≤ leaplessDay doe :=
        leaplessDay_le (by omega)
      omega

theorem marchDays_era {yoe : Nat} (era : Int) (h : yoe < 400) :
    marchDays (yoe + 400 * era) = 146097 * era + yearStart yoe - 719468 := by
  have hstart : yearStart yoe + yoe / 100 = 365 * yoe + yoe / 4 := by
    unfold yearStart
    omega
  unfold marchDays
  omega

theorem yearLength_era {yoe : Nat} (era : Int) (h : yoe < 400) :
    yearLength (isLeap (yoe + 400 * era + 1)) + yearStart yoe =
      yearStart (yoe + 1) + if yoe = 399 then 1 else 0 := by
  have hlength := daysBeforeYear_succ (yoe + 400 * era + 1)
  unfold daysBeforeYear leapYearsBefore at hlength
  unfold yearStart
  split <;> omega

/-- Month and day of the day `doy` of a year that starts in March. -/
def monthOfDay (doy : Nat) : Nat :=
  let mp := (5 * doy + 2) / 153
  if mp < 10 then mp + 3 else mp - 9

def dayOfMonth (doy : Nat) : Nat := doy - (153 * ((5 * doy + 2) / 153) + 2) / 5 + 1

def CivilDate.ofMarch (year : Int) (doy : Nat) : CivilDate :=
  ⟨if monthOfDay doy ≤ 2 then year + 1 else year, monthOfDay doy, dayOfMonth doy⟩

theorem CivilDate.valid_ofMarch {year : Int} {doy : Nat}
    (h : doy < yearLength (isLeap (year + 1))) : (ofMarch year doy).Valid := by
  -- from March on the length of a month does not depend on the year
  have htable : ∀ leap leap' : Bool, ∀ doy ∈ Finset.range (yearLength leap),
      1 ≤ monthOfDay doy ∧ monthOfDay doy ≤ 12 ∧ dayOfMonth doy ≤
        monthLength (if monthOfDay doy ≤ 2 then leap else leap') (monthOfDay doy) := by
    decide +kernel
  obtain ⟨hpos, hle, hday⟩ :=
    htable (isLeap (year + 1)) (isLeap year) doy (Finset.mem_range.mpr h)
  refine ⟨hpos, hle, Nat.le_add_left 1 _, ?_⟩
  rw [← apply_ite isLeap] at hday
  exact hday

theorem CivilDate.dayNumber_ofMarch {year : Int} {doy : Nat}
    (h : doy < yearLength (isLeap (year + 1))) :
    (ofMarch year doy).dayNumber = marchDays year + doy := by
  have htable : ∀ doy ∈ Finset.range 366,
      (153 * ((monthOfDay doy + 9) % 12) + 2) / 5 + dayOfMonth doy = doy + 1 := by decide +kernel
  have hle : yearLength (isLeap (year + 1)) ≤ 366 := by
    unfold yearLength
    split <;> omega
  have hday := htable doy (Finset.mem_range.mpr (h.trans_le hle))
  have hyear : (ofMarch year doy).marchYear = year := by
    simp only [marchYear, ofMarch]
    split <;> omega
  have hvalid := valid_ofMarch h
  rw [dayNumber_eq_march hvalid.month_pos hvalid.month_le, hyear, marchMonth]
  simp only [ofMarch]
  omega

end March

end Seamless.Library.Gregorian
