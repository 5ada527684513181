import Mathlib.Algebra.Order.Field.Basic
import Mathlib.Data.List.Induction
import Mathlib.Tactic.Linarith
import Mathlib.Tactic.Ring

/-!
A bucket that is refilled at a constant rate up to its burst and from which each granted
call takes one token.
-/

namespace Seamless.Library.TokenBucket

variable {K : Type*} [Field K] [LinearOrder K]

/-- `level` is what was left at the time `last`. -/
structure Bucket (K : Type*) where
  level : K
  last : K

/-- What a call at `now` finds. A clock that went back adds nothing. -/
def Bucket.refilled (rate burst : K) (b : Bucket K) (now : K) : K :=
  min (b.level + rate * max (now - b.last) 0) burst

def Bucket.take (rate burst : K) (b : Bucket K) (now : K) : Bool × Bucket K :=
  if 1 ≤ b.refilled rate burst now then (true, ⟨b.refilled rate burst now - 1, now⟩)
  else (false, ⟨b.refilled rate burst now, now⟩)

/-- The calls at the given times, each with whether it was granted, and what is left. -/
def run (rate burst : K) (b : Bucket K) (times : List K) : List (K × Bool) × Bucket K :=
  times.foldl (fun s now => (s.1 ++ [(now, (s.2.take rate burst now).1)],
    (s.2.take rate burst now).2)) ([], b)

/-- The calls granted from `start` to `stop`, both included. -/
def grantedWithin (start stop : K) (calls : List (K × Bool)) : List (K × Bool) :=
  calls.filter fun call => call.2 = true ∧ start ≤ call.1 ∧ call.1 ≤ stop

variable {rate burst start stop now : K} {b : Bucket K} {times : List K}

omit [Field K] in
theorem grantedWithin_append (calls : List (K × Bool)) (call : K × Bool) :
    (grantedWithin start stop (calls ++ [call])).length =
      (grantedWithin start stop calls).length +
        if call.2 = true ∧ start ≤ call.1 ∧ call.1 ≤ stop then 1 else 0 := by
  rw [grantedWithin, List.filter_append, List.length_append]
  split <;> simp_all [grantedWithin]

omit [Field K] in
theorem grantedWithin_outside (calls : List (K × Bool)) {call : K × Bool}
    (h : call.1 < start ∨ stop < call.1) :
    (grantedWithin start stop (calls ++ [call])).length =
      (grantedWithin start stop calls).length := by
  rw [grantedWithin_append, if_neg, Nat.add_zero]
  rintro ⟨-, hstart, hstop⟩
  rcases h with hbefore | hafter
  · exact absurd hstart (not_le.mpr hbefore)
  · exact absurd hstop (not_le.mpr hafter)

theorem run_append (rate burst : K) (b : Bucket K) (times : List K) (now : K) :
    run rate burst b (times ++ [now]) =
      ((run rate burst b times).1 ++ [(now, ((run rate burst b times).2.take rate burst now).1)],
        ((run rate burst b times).2.take rate burst now).2) := by
  simp [run, List.foldl_append]

theorem last_take (rate burst : K) (b : Bucket K) (now : K) :
    (b.take rate burst now).2.last = now := by
  unfold Bucket.take
  split <;> rfl

theorem last_run (h : times ≠ []) : (run rate burst b times).2.last ∈ times := by
  rcases List.eq_nil_or_concat times with rfl | ⟨before, now, rfl⟩
  · exact absurd rfl h
  · rw [List.concat_eq_append, run_append, last_take]
    simp

theorem take_balance (rate burst : K) (b : Bucket K) (now : K) :
    (if (b.take rate burst now).1 then 1 else 0) + (b.take rate burst now).2.level =
      b.refilled rate burst now := by
  unfold Bucket.take
  split <;> simp

section Bounds

variable [IsStrictOrderedRing K]

theorem refilled_nonneg (hrate : 0 ≤ rate) (hburst : 0 ≤ burst) (h : 0 ≤ b.level) (now : K) :
    0 ≤ b.refilled rate burst now := by
  apply le_min _ hburst
  have hadded : 0 ≤ rate * max (now - b.last) 0 := mul_nonneg hrate (le_max_right _ _)
  linarith

theorem refilled_le (rate burst : K) (hle : b.last ≤ now) :
    b.refilled rate burst now ≤ b.level + rate * (now - b.last) := by
  apply (min_le_left _ _).trans
  rw [max_eq_left (sub_nonneg.mpr hle)]

theorem take_bounds (hrate : 0 ≤ rate) (hburst : 0 ≤ burst) (h : 0 ≤ b.level) (now : K) :
    0 ≤ (b.take rate burst now).2.level ∧ (b.take rate burst now).2.level ≤ burst := by
  have hnonneg := refilled_nonneg hrate hburst h now
  have hle : b.refilled rate burst now ≤ burst := min_le_right _ _
  unfold Bucket.take
  split
  · rename_i hone
    constructor
    · exact sub_nonneg.mpr hone
    · exact (sub_le_self _ zero_le_one).trans hle
  · exact ⟨hnonneg, hle⟩

theorem run_bounds (hrate : 0 ≤ rate) (hburst : 0 ≤ burst) (h : 0 ≤ b.level) (times : List K) :
    0 ≤ (run rate burst b times).2.level ∧
      (times ≠ [] → (run rate burst b times).2.level ≤ burst) := by
  induction times using List.reverseRecOn with
  | nil => exact ⟨h, fun hne => absurd rfl hne⟩
  | append_singleton times now ih =>
      rw [run_append]
      obtain ⟨hnonneg, hle⟩ := take_bounds hrate hburst ih.1 now
      exact ⟨hnonneg, fun _ => hle⟩

/-- Where a run stands that has made a call: before the interval nothing was granted in it,
inside it what was granted and what is left are bounded together, after it the bound stands. -/
structure Within (rate burst start stop : K) (s : List (K × Bool) × Bucket K) : Prop where
  before : s.2.last < start → (grantedWithin start stop s.1).length = 0
  inside : start ≤ s.2.last → s.2.last ≤ stop →
    (grantedWithin start stop s.1).length + s.2.level ≤ burst + rate * (s.2.last - start)
  after : stop < s.2.last →
    ((grantedWithin start stop s.1).length : K) ≤ burst + rate * (stop - start)

theorem within_take (calls : List (K × Bool))
    (hbefore : now < start → (grantedWithin start stop calls).length = 0)
    (hinside : start ≤ now → now ≤ stop →
      (grantedWithin start stop calls).length + b.refilled rate burst now ≤
        burst + rate * (now - start))
    (hafter : stop < now →
      ((grantedWithin start stop calls).length : K) ≤ burst + rate * (stop - start)) :
    Within rate burst start stop
      (calls ++ [(now, (b.take rate burst now).1)], (b.take rate burst now).2) := by
  constructor
  · intro hlast
    rw [last_take] at hlast
    rw [grantedWithin_outside calls (.inl hlast)]
    exact hbefore hlast
  · intro hstart hstop
    rw [last_take] at hstart hstop ⊢
    have hbalance := take_balance rate burst b now
    have hbound := hinside hstart hstop
    have hcount : ((grantedWithin start stop (calls ++ [(now, (b.take rate burst now).1)])).length
        : K) = (grantedWithin start stop calls).length +
          if (b.take rate burst now).1 = true then 1 else 0 := by
      rw [grantedWithin_append]
      simp [hstart, hstop]
    rw [hcount]
    linarith
  · intro hlast
    rw [last_take] at hlast
    rw [grantedWithin_outside calls (.inr hlast)]
    exact hafter hlast

theorem within_first (hrate : 0 ≤ rate) (hburst : 0 ≤ burst) (hstop : start ≤ stop)
    (b : Bucket K) (now : K) : Within rate burst start stop (run rate burst b [now]) := by
  have hgrown : ∀ t, start ≤ t → 0 ≤ rate * (t - start) := by
    intro t ht
    exact mul_nonneg hrate (sub_nonneg.mpr ht)
  refine within_take [] ?_ ?_ ?_
  · intro _
    rfl
  · intro hnow _
    have hle : b.refilled rate burst now ≤ burst := min_le_right _ _
    have hadded := hgrown now hnow
    simp only [grantedWithin, List.filter_nil, List.length_nil, Nat.cast_zero]
    linarith
  · intro _
    have hadded := hgrown stop hstop
    simp only [grantedWithin, List.filter_nil, List.length_nil, Nat.cast_zero]
    linarith

theorem Within.take {s : List (K × Bool) × Bucket K} (h : Within rate burst start stop s)
    (hrate : 0 ≤ rate) (hburst : 0 ≤ burst) (hstop : start ≤ stop) (hlevel : 0 ≤ s.2.level)
    (hle : s.2.last ≤ now) :
    Within rate burst start stop
      (s.1 ++ [(now, (s.2.take rate burst now).1)], (s.2.take rate burst now).2) := by
  have hgrown : ∀ t u, t ≤ u → rate * (t - start) ≤ rate * (u - start) := by
    intro t u htu
    exact mul_le_mul_of_nonneg_left (sub_le_sub_right htu _) hrate
  have hzero : rate * (start - start) = 0 := by rw [sub_self, mul_zero]
  refine within_take s.1 ?_ ?_ ?_
  · intro hnow
    exact h.before (hle.trans_lt hnow)
  · intro hstart hend
    rcases lt_or_ge s.2.last start with hlast | hlast
    · have hfound : s.2.refilled rate burst now ≤ burst := min_le_right _ _
      have hadded := hgrown start now hstart
      rw [h.before hlast, Nat.cast_zero]
      linarith
    · have hfound := refilled_le rate burst hle
      have hbound := h.inside hlast (hle.trans hend)
      have hsplit : rate * (now - start) =
          rate * (s.2.last - start) + rate * (now - s.2.last) := by ring
      linarith
  · intro hend
    rcases lt_or_ge s.2.last start with hlast | hlast
    · have hadded := hgrown start stop hstop
      rw [h.before hlast, Nat.cast_zero]
      linarith
    · rcases lt_or_ge stop s.2.last with hafter | hinside
      · exact h.after hafter
      · have hbound := h.inside hlast hinside
        have hadded := hgrown s.2.last stop hinside
        linarith

theorem within_run (hrate : 0 ≤ rate) (hburst : 0 ≤ burst) (hstop : start ≤ stop)
    (hlevel : 0 ≤ b.level) (hsorted : times.Pairwise (· ≤ ·)) (hne : times ≠ []) :
    Within rate burst start stop (run rate burst b times) := by
  induction times using List.reverseRecOn with
  | nil => exact absurd rfl hne
  | append_singleton times now ih =>
      rcases eq_or_ne times [] with rfl | hsome
      · exact within_first hrate hburst hstop b now
      · obtain ⟨hfront, -, hlast⟩ := List.pairwise_append.mp hsorted
        have hle : (run rate burst b times).2.last ≤ now :=
          hlast _ (last_run hsome) now List.mem_cons_self
        rw [run_append]
        exact (ih hfront hsome).take hrate hburst hstop (run_bounds hrate hburst hlevel times).1 hle

/-- At most `burst + rate * T` calls are granted in an interval of length `T`. -/
theorem granted_le (hrate : 0 ≤ rate) (hburst : 0 ≤ burst) (hstop : start ≤ stop)
    (hlevel : 0 ≤ b.level) (hsorted : times.Pairwise (· ≤ ·)) :
    ((grantedWithin start stop (run rate burst b times).1).length : K) ≤
      burst + rate * (stop - start) := by
  have hgrown : 0 ≤ rate * (stop - start) := mul_nonneg hrate (sub_nonneg.mpr hstop)
  rcases eq_or_ne times [] with rfl | hne
  · simp only [run, List.foldl_nil, grantedWithin, List.filter_nil, List.length_nil, Nat.cast_zero]
    linarith
  · have hwithin := within_run hrate hburst hstop hlevel hsorted hne
    have hleft := (run_bounds hrate hburst hlevel times).1
    rcases lt_or_ge (run rate burst b times).2.last start with hbefore | hstart
    · rw [hwithin.before hbefore, Nat.cast_zero]
      linarith
    · rcases lt_or_ge stop (run rate burst b times).2.last with hafter | hinside
      · exact hwithin.after hafter
      · have hbound := hwithin.inside hstart hinside
        have hadded : rate * ((run rate burst b times).2.last - start) ≤ rate * (stop - start) :=
          mul_le_mul_of_nonneg_left (sub_le_sub_right hinside _) hrate
        linarith

end Bounds

end Seamless.Library.TokenBucket
