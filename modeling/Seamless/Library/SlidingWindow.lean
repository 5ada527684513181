import Mathlib.Data.List.Induction
import Mathlib.Tactic.Common

/-!
The sliding-window limit, said over the whole history of calls: a call is granted
when fewer than `limit` granted calls of the same key lie less than `window` back.
-/

namespace Seamless.Library.SlidingWindow

structure Call (κ : Type*) where
  key : κ
  time : Nat
  deriving Repr, DecidableEq

variable {κ : Type*} [DecidableEq κ] (limit window : Nat)

/-- The calls of `key` that still count at `now`. -/
def recent (key : κ) (now : Nat) (calls : List (Call κ)) : List (Call κ) :=
  calls.filter fun c => c.key = key ∧ now - c.time < window

/-- The calls of `key` in the interval from `start` up to, but not including, `stop`. -/
def within (key : κ) (start stop : Nat) (calls : List (Call κ)) : List (Call κ) :=
  calls.filter fun c => c.key = key ∧ start ≤ c.time ∧ c.time < stop

def grants (granted : List (Call κ)) (c : Call κ) : Bool :=
  (recent window c.key c.time granted).length < limit

def grant (granted : List (Call κ)) (c : Call κ) : List (Call κ) :=
  if grants limit window granted c then granted ++ [c] else granted

def granted (calls : List (Call κ)) : List (Call κ) :=
  calls.foldl (grant limit window) []

/-- The times of the calls never go back. -/
def Chronological (calls : List (Call κ)) : Prop :=
  calls.Pairwise fun c d => c.time ≤ d.time

variable {limit window} {calls earlier later : List (Call κ)} {c d : Call κ} {key : κ}

theorem granted_snoc (calls : List (Call κ)) (c : Call κ) :
    granted limit window (calls ++ [c]) = grant limit window (granted limit window calls) c := by
  simp [granted]

omit [DecidableEq κ] in
theorem Chronological.le_last (h : Chronological (calls ++ [c])) (hd : d ∈ calls) :
    d.time ≤ c.time :=
  (List.pairwise_append.mp h).2.2 d hd c (by simp)

omit [DecidableEq κ] in
theorem Chronological.sublist (h : Chronological calls) (hsub : later.Sublist calls) :
    Chronological later :=
  List.Pairwise.sublist hsub h

omit [DecidableEq κ] in
theorem Chronological.init (h : Chronological (calls ++ [c])) : Chronological calls :=
  h.sublist (List.sublist_append_left _ _)

/-- No half-open interval as long as the window has more than `limit` granted calls
of one key. -/
theorem length_within_granted_le (h : Chronological calls) (key : κ) (start : Nat) :
    (within key start (start + window) (granted limit window calls)).length ≤ limit := by
  induction calls using List.reverseRecOn with
  | nil => simp [granted, within]
  | append_singleton calls c ih =>
      have hinit := ih h.init
      rw [granted_snoc, grant]
      split
      · rename_i hgrants
        rw [within, List.filter_append, List.length_append]
        by_cases hin : c.key = key ∧ start ≤ c.time ∧ c.time < start + window
        · have hcount :
              (recent window c.key c.time (granted limit window calls)).length < limit := by
            simpa [grants] using hgrants
          have hearlier : (within key start (start + window) (granted limit window calls)).length ≤
              (recent window c.key c.time (granted limit window calls)).length := by
            simp only [within, recent, ← List.countP_eq_length_filter]
            apply List.countP_mono_left
            intro d _ hd
            simp only [decide_eq_true_eq] at hd ⊢
            refine ⟨hd.1.trans hin.1.symm, ?_⟩
            omega
          have hone := List.length_filter_le (fun d : Call κ =>
            decide (d.key = key ∧ start ≤ d.time ∧ d.time < start + window)) [c]
          rw [within] at hearlier
          simp only [List.length_singleton] at hone
          omega
        · rw [List.filter_cons_of_neg (by simpa using hin)]
          exact hinit
      · exact hinit

theorem granted_of_refused (h : grants limit window (granted limit window earlier) c = false) :
    granted limit window (earlier ++ c :: later) = granted limit window (earlier ++ later) := by
  have hstep : grant limit window (granted limit window earlier) c =
      granted limit window earlier := by
    simp [grant, h]
  simp only [granted, List.foldl_append, List.foldl_cons] at hstep ⊢
  rw [hstep]

theorem recent_filter_key (now : Nat) (calls : List (Call κ)) :
    recent window key now (calls.filter fun d => d.key = key) = recent window key now calls := by
  simp only [recent, List.filter_filter]
  apply List.filter_congr
  intro d _
  by_cases hkey : d.key = key <;> simp [hkey]

theorem granted_filter_key (key : κ) (calls : List (Call κ)) :
    granted limit window (calls.filter fun d => d.key = key) =
      (granted limit window calls).filter fun d => d.key = key := by
  induction calls using List.reverseRecOn with
  | nil => simp [granted]
  | append_singleton calls c ih =>
      rw [List.filter_append, granted_snoc]
      by_cases hkey : c.key = key
      · subst hkey
        have hsame : grants limit window ((granted limit window calls).filter fun d =>
            d.key = c.key) c = grants limit window (granted limit window calls) c := by
          simp only [grants, recent_filter_key]
        rw [List.filter_cons_of_pos (by simp), List.filter_nil, granted_snoc, ih, grant, grant,
          hsame]
        split <;> simp
      · have hskip : ([c].filter fun d => d.key = key) = [] := by simp [hkey]
        rw [hskip, List.append_nil, ih, grant]
        split <;> simp [hkey]

theorem grants_filter_key (calls : List (Call κ)) (c : Call κ) :
    grants limit window (granted limit window (calls.filter fun d => d.key = c.key)) c =
      grants limit window (granted limit window calls) c := by
  simp only [granted_filter_key, grants, recent_filter_key]

end Seamless.Library.SlidingWindow
