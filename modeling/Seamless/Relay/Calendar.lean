import Seamless.Library.Gregorian
import Seamless.Relay.AuditLog

/-!
The two calendar computations of the relay: `epoch_to_ymd`, by which the audit log is
rotated, and `days_since_epoch`, by which the expiry of a certificate is counted. Both
are compared with the calendar in which each date is followed by its successor.
-/

namespace Seamless.Relay

open Seamless.Library
open Seamless.Library.Gregorian

/-- Division truncates. The callers' dates are far from the bounds of `i64`. -/
def daysSinceEpoch (year month day : Int) : Option Int :=
  let a := (14 - month).tdiv 12
  let y := year + 4800 - a
  let m := month + 12 * a - 3
  let jdn := day + (153 * m + 2).tdiv 5 + 365 * y + y.tdiv 4 - y.tdiv 100 + y.tdiv 400 - 32045
  some (jdn - 2440588)

/-- The date that the components of a `Date` stand for. -/
def Date.civil (date : Date) : CivilDate := ⟨date.year.toInt, date.month.toNat, date.day.toNat⟩

/-- The Gregorian year at that second fits in `i32`. -/
def YearFits (secs : UInt64) : Prop := (dateOfDay (secs.toNat / 86400)).year < 2 ^ 31

theorem daysSinceEpoch_eq {date : CivilDate} (h : date.Valid) (hyear : -4799 ≤ date.year) :
    daysSinceEpoch date.year date.month date.day = some date.dayNumber := by
  have hpos := h.month_pos
  have hle := h.month_le
  rw [CivilDate.dayNumber_eq_march hpos hle, CivilDate.marchYear, CivilDate.marchMonth,
    marchDays, daysSinceEpoch]
  simp only [Option.some.injEq]
  rw [Int.tdiv_eq_ediv_of_nonneg (a := 14 - (date.month : Int)) (by omega)]
  rw [Int.tdiv_eq_ediv_of_nonneg (by omega), Int.tdiv_eq_ediv_of_nonneg (by omega),
    Int.tdiv_eq_ediv_of_nonneg (by omega), Int.tdiv_eq_ediv_of_nonneg (by omega)]
  split <;> omega

theorem leaplessDay_nonneg (doe : Nat) : 0 ≤ leaplessDay doe :=
  leaplessDay_le (Nat.zero_le doe)

theorem ofMarch_eq_dateOfDay {n era doe yoe : Nat} (hn : (n : Int) + 719468 = 146097 * era + doe)
    (hdoe : doe < 146097) (hyoe : (yoe : Int) = leaplessDay doe / 365) :
    CivilDate.ofMarch (yoe + 400 * era) (doe - yearStart yoe) = dateOfDay n := by
  obtain ⟨hlt, hle, hafter⟩ := yearOfEra_spec hdoe hyoe
  have hlength := yearLength_era era hlt
  have hmarch := marchDays_era era hlt
  have hdoy : doe - yearStart yoe < yearLength (isLeap (yoe + 400 * era + 1)) := by omega
  apply eq_dateOfDay (CivilDate.valid_ofMarch hdoy)
  rw [CivilDate.dayNumber_ofMarch hdoy, hmarch]
  omega

theorem monthOfDay_eq (doy : Nat) : (monthOfDay doy : Int) =
    if (5 * (doy : Int) + 2).tdiv 153 < 10 then (5 * (doy : Int) + 2).tdiv 153 + 3
      else (5 * (doy : Int) + 2).tdiv 153 - 9 := by
  rw [Int.tdiv_eq_ediv_of_nonneg (by omega), monthOfDay]
  split <;> split <;> omega

theorem dayOfMonth_eq (doy : Nat) : (dayOfMonth doy : Int) =
    doy - (153 * (5 * (doy : Int) + 2).tdiv 153 + 2).tdiv 5 + 1 := by
  rw [Int.tdiv_eq_ediv_of_nonneg (a := 5 * (doy : Int) + 2) (by omega),
    Int.tdiv_eq_ediv_of_nonneg (by omega), dayOfMonth]
  generalize hmp : (5 * doy + 2) / 153 = mp
  have hcast : (5 * (doy : Int) + 2) / 153 = mp := by omega
  have hle : (153 * mp + 2) / 5 ≤ doy := by omega
  rw [hcast]
  omega

theorem ofNat_emod (n : Nat) : UInt32.ofNat ((n : Int) % 2 ^ 32).toNat = .ofNat n := by
  rw [← UInt32.toNat_inj, UInt32.toNat_ofNat', UInt32.toNat_ofNat']
  omega

theorem epochToYmd_eq (secs : UInt64) : epochToYmd secs =
    ⟨.ofInt (dateOfDay (secs.toNat / 86400)).year, .ofNat (dateOfDay (secs.toNat / 86400)).month,
      .ofNat (dateOfDay (secs.toNat / 86400)).day⟩ := by
  unfold epochToYmd
  generalize hn : secs.toNat / 86400 = n
  have hdays : (secs.toNat : Int) / 86400 = n := by omega
  obtain ⟨era, hera⟩ : ∃ era : Nat, ((n : Int) + 719468) / 146097 = era :=
    Int.eq_ofNat_of_zero_le (by omega)
  obtain ⟨doe, hdoe⟩ : ∃ doe : Nat, (n : Int) + 719468 - era * 146097 = doe :=
    Int.eq_ofNat_of_zero_le (by omega)
  obtain ⟨yoe, hyoe⟩ : ∃ yoe : Nat, leaplessDay doe / 365 = yoe :=
    Int.eq_ofNat_of_zero_le (Int.ediv_nonneg (leaplessDay_nonneg doe) (by decide))
  have hlast : doe < 146097 := by omega
  have hdate := ofMarch_eq_dateOfDay (show (n : Int) + 719468 = 146097 * era + doe by omega) hlast
    hyoe.symm
  have hnonneg : (0 : Int) ≤ (n : Int) + 719468 := by omega
  have hleapless : ((doe : Int) - (doe : Int).tdiv 1460 + (doe : Int).tdiv 36524 -
      (doe : Int).tdiv 146096).tdiv 365 = yoe := by
    rw [← hyoe, ← Int.tdiv_eq_ediv_of_nonneg (leaplessDay_nonneg doe)]
    rfl
  have hdoy : (doe : Int) - (365 * yoe + (yoe : Int).tdiv 4 - (yoe : Int).tdiv 100) =
      (doe - yearStart yoe : Nat) := by
    obtain ⟨-, hle, -⟩ := yearOfEra_spec hlast hyoe.symm
    rw [Int.tdiv_eq_ediv_of_nonneg (by omega), Int.tdiv_eq_ediv_of_nonneg (by omega)]
    unfold yearStart at hle ⊢
    omega
  simp only [hdays, if_pos hnonneg, Int.tdiv_eq_ediv_of_nonneg hnonneg, hera, hdoe, hleapless,
    hdoy, ← monthOfDay_eq, ← dayOfMonth_eq]
  rw [← hdate, ofNat_emod, ofNat_emod]
  simp only [CivilDate.ofMarch, Nat.cast_le_ofNat, mul_comm (400 : Int)]

theorem le_year_dateOfDay (n : Nat) : 1970 ≤ (dateOfDay n).year := year_dateOfDay_le (Nat.zero_le n)

theorem civil_epochToYmd {secs : UInt64} (h : YearFits secs) :
    (epochToYmd secs).civil = dateOfDay (secs.toNat / 86400) := by
  rw [epochToYmd_eq]
  unfold YearFits at h
  generalize secs.toNat / 86400 = n at h ⊢
  have hvalid := valid_dateOfDay n
  have hyear := le_year_dateOfDay n
  have hmonth := hvalid.month_le
  have hday : (dateOfDay n).day ≤ 31 := hvalid.day_le.trans (monthLength_le _ _)
  apply CivilDate.ext
  · exact Int32.toInt_ofInt_of_le (by simp; omega) (by omega)
  · exact UInt32.toNat_ofNat_of_lt' (by simp [UInt32.size]; omega)
  · exact UInt32.toNat_ofNat_of_lt' (by simp [UInt32.size]; omega)

theorem dayNumber_bound {date : CivilDate} (h : date.Valid) (hyear : date.year < 2 ^ 31) :
    86400 * date.dayNumber + 86400 ≤ 2 ^ 64 := by
  have hlt := CivilDate.dayNumber_lt_year h
  have hle : daysBeforeYear (date.year + 1) ≤ daysBeforeYear (2 ^ 31) :=
    daysBeforeYear_le (by omega)
  have hlast : daysBeforeYear (2 ^ 31) ≤ 10 ^ 12 := by decide
  omega

theorem daysSinceEpoch_epochToYmd {secs : UInt64} (h : YearFits secs) :
    daysSinceEpoch (epochToYmd secs).year.toInt (epochToYmd secs).month.toNat
      (epochToYmd secs).day.toNat = some (secs.toNat / 86400 : Nat) := by
  have hvalid := valid_dateOfDay (secs.toNat / 86400)
  have hyear := le_year_dateOfDay (secs.toNat / 86400)
  have hnumber := daysSinceEpoch_eq hvalid (by omega)
  rw [dayNumber_dateOfDay, ← civil_epochToYmd h] at hnumber
  exact hnumber

theorem civil_epochToYmd_succ {secs secs' : UInt64} (h : YearFits secs')
    (hday : secs'.toNat / 86400 = secs.toNat / 86400 + 1) :
    (epochToYmd secs').civil = (epochToYmd secs).civil.next := by
  have hbefore : YearFits secs := by
    unfold YearFits at h ⊢
    exact (year_dateOfDay_le (by omega)).trans_lt h
  rw [civil_epochToYmd h, civil_epochToYmd hbefore, hday, dateOfDay_succ]

theorem civil_epochToYmd_of_day {date : CivilDate} {n r : Nat} (h : date.Valid)
    (hyear : date.year < 2 ^ 31) (hn : date.dayNumber = n) (hr : r < 86400) :
    (epochToYmd (.ofNat (86400 * n + r))).civil = date := by
  have hbound := dayNumber_bound h hyear
  have hsecs : (UInt64.ofNat (86400 * n + r)).toNat / 86400 = n := by
    rw [UInt64.toNat_ofNat_of_lt' (by simp [UInt64.size]; omega)]
    omega
  have hdate : date = dateOfDay n := eq_dateOfDay h hn
  have hfits : YearFits (.ofNat (86400 * n + r)) := by
    rw [YearFits, hsecs, ← hdate]
    exact hyear
  rw [civil_epochToYmd hfits, hsecs, hdate]

/-- A second goes to the valid date of its day, which `days_since_epoch` counts back, and the
next day to the date after it; a date goes to a day all of whose seconds give the date. -/
theorem calendars_inverse :
    (∀ secs : UInt64, YearFits secs → (epochToYmd secs).civil.Valid ∧
      daysSinceEpoch (epochToYmd secs).year.toInt (epochToYmd secs).month.toNat
        (epochToYmd secs).day.toNat = some (secs.toNat / 86400 : Nat)) ∧
    (∀ secs secs' : UInt64, YearFits secs' → secs'.toNat / 86400 = secs.toNat / 86400 + 1 →
      (epochToYmd secs').civil = (epochToYmd secs).civil.next) ∧
    ∀ date : CivilDate, date.Valid → 1970 ≤ date.year → date.year < 2 ^ 31 →
      ∃ n : Nat, daysSinceEpoch date.year date.month date.day = some (n : Int) ∧
        86400 * n + 86400 ≤ 2 ^ 64 ∧
        ∀ r < 86400, (epochToYmd (.ofNat (86400 * n + r))).civil = date := by
  refine ⟨?_, ?_, ?_⟩
  · intro secs hfits
    refine ⟨?_, daysSinceEpoch_epochToYmd hfits⟩
    rw [civil_epochToYmd hfits]
    exact valid_dateOfDay _
  · intro secs secs' hfits hday
    exact civil_epochToYmd_succ hfits hday
  · intro date hvalid hyear hfits
    have hfirst : daysBeforeYear 1970 ≤ daysBeforeYear date.year := daysBeforeYear_le hyear
    have hnumber := CivilDate.daysBeforeYear_le_dayNumber hvalid
    have hepoch : daysBeforeYear 1970 = 0 := by decide
    obtain ⟨n, hn⟩ : ∃ n : Nat, date.dayNumber = n := Int.eq_ofNat_of_zero_le (by omega)
    have hbound := dayNumber_bound hvalid hfits
    refine ⟨n, ?_, by omega, fun r hr => civil_epochToYmd_of_day hvalid hfits hn hr⟩
    rw [daysSinceEpoch_eq hvalid (by omega), hn]

/-- On the leap day of 2024 and on the day after it. -/
theorem calendars_inverse_leapDay :
    YearFits 1709251200 ∧ (⟨2024, 2, 29⟩ : CivilDate).Valid ∧
      daysSinceEpoch 2024 3 1 = some 19783 ∧
      (epochToYmd 1709251200).civil = (epochToYmd 1709164800).civil.next ∧
      (epochToYmd 1709164800).civil = ⟨2024, 2, 29⟩ := by
  have hvalid : (⟨2024, 3, 1⟩ : CivilDate).Valid :=
    ⟨by decide, by decide, by decide, by decide⟩
  have hfits : YearFits 1709251200 := by
    rw [YearFits, show (1709251200 : UInt64).toNat / 86400 = 19783 from by decide,
      ← eq_dateOfDay hvalid (by decide)]
    decide
  have hleap : (⟨2024, 2, 29⟩ : CivilDate).Valid :=
    ⟨by decide, by decide, by decide, by decide⟩
  obtain ⟨hto, hnext, hfrom⟩ := calendars_inverse
  obtain ⟨n, hn, -, hday⟩ := hfrom ⟨2024, 2, 29⟩ hleap (by decide) (by decide)
  have hcount : (n : Int) = 19782 := (Option.some.inj hn).symm
  obtain rfl : n = 19782 := by omega
  have hnumber := (hto 1709251200 hfits).2
  rw [show epochToYmd 1709251200 = ⟨2024, 3, 1⟩ from by decide +kernel] at hnumber
  exact ⟨hfits, hleap, hnumber, hnext _ _ hfits (by decide), hday 0 (by decide)⟩

end Seamless.Relay
