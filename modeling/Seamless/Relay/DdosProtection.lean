import Mathlib.Algebra.Order.Ring.Rat
import Mathlib.Data.Rat.Cast.Order
import Seamless.Library.TokenBucket
import Seamless.Relay.AdminApi

/-!
The token bucket of a tunnel over whole histories of calls and of changes to its settings.
While it is disabled a call leaves the clock of the bucket where it was, so the first call
after that may find a long time gone by.
-/

namespace Seamless.Relay

open Seamless.Library
open Seamless.Library.TokenBucket
open Seamless.Library.TransitionSystem

/-- A clock reading in seconds. -/
def seconds (now : Nat) : ℚ := now / 1000000000

namespace DDoSProtection

/-- What `set_ddos_config` stores. -/
def configure (d : DDoSProtection) (req : DdosConfigReq) : DDoSProtection :=
  { d with
    enabled := req.enabled.getD d.enabled
    rps := (req.requestsPerSecondLimit.map (max 1)).getD d.rps
    burst := (req.burstSize.map (max 1)).getD d.burst
    challengeMode := req.challengeMode.getD d.challengeMode }

theorem setDdosConfig_configure {s : AdminState} {id : String} {entry : TunnelEntry}
    (h : s.shared.tunnels.lookup id = some entry) (req : DdosConfigReq) :
    s.setDdosConfig id req =
      (.ok 200, s.setEntry id { entry with ddos := entry.ddos.configure req }) := by
  simp [AdminState.setDdosConfig, AdminState.onTunnel, h, configure]

/-- The tokens after the refill of a call at `now`. -/
def refilledTokens (d : DDoSProtection) (now : Nat) : ℚ :=
  min (d.tokens + ((now - d.lastRefill : Nat) : ℚ) / 1000000000 * d.rps.toNat) d.burst.toNat

/-- Calls at the given times, each with its result. -/
def checks (d : DDoSProtection) (times : List Nat) : List (Nat × Bool) × DDoSProtection :=
  times.foldl (fun s now => (s.1 ++ [(now, (s.2.check now).1)], (s.2.check now).2)) ([], d)

/-- The allowed calls from `start` to `stop`, in seconds. -/
def allowedWithin (start stop : ℚ) (calls : List (Nat × Bool)) : List (Nat × Bool) :=
  calls.filter fun call => call.2 = true ∧ start ≤ seconds call.1 ∧ seconds call.1 ≤ stop

end DDoSProtection

inductive DdosMove where
  | check (now : Nat)
  | configure (req : DdosConfigReq)

def DdosMove.step (d : DDoSProtection) : DdosMove → Option DDoSProtection
  | .check now => some (d.check now).2
  | .configure req => some (d.configure req)

namespace DDoSProtection

variable {d : DDoSProtection} {now : Nat} {times : List Nat}

def bucket (d : DDoSProtection) : Bucket ℚ := ⟨d.tokens, seconds d.lastRefill⟩

theorem refilledTokens_eq (d : DDoSProtection) (now : Nat) :
    d.refilledTokens now =
      d.bucket.refilled (d.rps.toNat : ℚ) (d.burst.toNat : ℚ) (seconds now) := by
  have helapsed : ((now - d.lastRefill : Nat) : ℚ) / 1000000000 =
      max (seconds now - seconds d.lastRefill) 0 := by
    unfold seconds
    rcases le_total d.lastRefill now with hle | hle
    · have hcast : (d.lastRefill : ℚ) ≤ now := Nat.cast_le.mpr hle
      rw [Nat.cast_sub hle, max_eq_left (by linarith), sub_div]
    · have hcast : (now : ℚ) ≤ d.lastRefill := Nat.cast_le.mpr hle
      rw [Nat.sub_eq_zero_of_le hle, Nat.cast_zero, zero_div, max_eq_right (by linarith)]
  rw [refilledTokens, Bucket.refilled, helapsed, mul_comm]
  rfl

theorem check_eq (henabled : d.enabled = true) (hrps : d.rps ≠ 0) (now : Nat) :
    d.check now = if 1 ≤ d.refilledTokens now
      then (true, { d with tokens := d.refilledTokens now - 1, lastRefill := now })
      else (false, { d with
        tokens := d.refilledTokens now
        lastRefill := now
        blockedCount := d.blockedCount + 1 }) := by
  simp [check, henabled, hrps, refilledTokens]

theorem check_take (henabled : d.enabled = true) (hrps : d.rps ≠ 0) (now : Nat) :
    ((d.check now).1, (d.check now).2.bucket) =
      d.bucket.take (d.rps.toNat : ℚ) (d.burst.toNat : ℚ) (seconds now) := by
  rw [check_eq henabled hrps, Bucket.take, ← refilledTokens_eq]
  split <;> rfl

theorem check_settings (d : DDoSProtection) (now : Nat) :
    (d.check now).2.enabled = d.enabled ∧ (d.check now).2.rps = d.rps ∧
      (d.check now).2.burst = d.burst := by
  unfold check
  split
  · exact ⟨rfl, rfl, rfl⟩
  · split
    · exact ⟨rfl, rfl, rfl⟩
    · dsimp only
      split <;> exact ⟨rfl, rfl, rfl⟩

theorem check_blockedCount (henabled : d.enabled = true) (hrps : d.rps ≠ 0) (now : Nat) :
    (d.check now).2.blockedCount = d.blockedCount + if (d.check now).1 then 0 else 1 := by
  rw [check_eq henabled hrps]
  split <;> simp

theorem checks_append (d : DDoSProtection) (times : List Nat) (now : Nat) :
    d.checks (times ++ [now]) =
      ((d.checks times).1 ++ [(now, ((d.checks times).2.check now).1)],
        ((d.checks times).2.check now).2) := by
  simp [checks, List.foldl_append]

theorem checks_settings (d : DDoSProtection) (times : List Nat) :
    (d.checks times).2.enabled = d.enabled ∧ (d.checks times).2.rps = d.rps ∧
      (d.checks times).2.burst = d.burst := by
  induction times using List.reverseRecOn with
  | nil => exact ⟨rfl, rfl, rfl⟩
  | append_singleton times now ih =>
      obtain ⟨henabled, hrps, hburst⟩ := check_settings (d.checks times).2 now
      rw [checks_append]
      exact ⟨henabled.trans ih.1, hrps.trans ih.2.1, hburst.trans ih.2.2⟩

theorem checks_run (henabled : d.enabled = true) (hrps : d.rps ≠ 0) (times : List Nat) :
    ((d.checks times).1.map fun call => (seconds call.1, call.2), (d.checks times).2.bucket) =
      run (d.rps.toNat : ℚ) (d.burst.toNat : ℚ) d.bucket (times.map seconds) := by
  induction times using List.reverseRecOn with
  | nil => rfl
  | append_singleton times now ih =>
      obtain ⟨henabled', hrps', hburst'⟩ := checks_settings d times
      have htake := check_take (henabled'.trans henabled) (hrps' ▸ hrps) now
      rw [hrps', hburst'] at htake
      rw [List.map_append, List.map_singleton, run_append, ← ih, ← htake, checks_append,
        List.map_append, List.map_singleton]

theorem checks_blockedCount (henabled : d.enabled = true) (hrps : d.rps ≠ 0) (times : List Nat) :
    (d.checks times).2.blockedCount = d.blockedCount +
      .ofNat ((d.checks times).1.countP fun call => !call.2) := by
  induction times using List.reverseRecOn with
  | nil => simp [checks]
  | append_singleton times now ih =>
      obtain ⟨henabled', hrps', -⟩ := checks_settings d times
      have hcount := check_blockedCount (henabled'.trans henabled) (hrps' ▸ hrps) now
      rw [checks_append, hcount, ih, List.countP_append, UInt64.ofNat_add, ← UInt64.add_assoc]
      cases ((d.checks times).2.check now).1 <;> rfl

theorem tokens_nonneg {rps burst : UInt32} {created : Nat} {history : List DdosMove}
    (h : exec DdosMove.step (.new rps burst created) history = some d) : 0 ≤ d.tokens := by
  refine (freeRun_of_exec h).invariant (I := fun d => 0 ≤ d.tokens) (Nat.cast_nonneg _) ?_
  intro d move d' hnonneg _ hstep
  cases move with
  | configure req =>
      obtain rfl := Option.some.inj hstep
      exact hnonneg
  | check now =>
      obtain rfl := Option.some.inj hstep
      by_cases hused : d.enabled = true ∧ d.rps ≠ 0
      · have htake := check_take hused.1 hused.2 now
        have hlevel := congrArg (fun t => t.2.level) htake
        dsimp only [bucket] at hlevel
        rw [hlevel]
        exact (take_bounds (Nat.cast_nonneg _) (Nat.cast_nonneg _) hnonneg _).1
      · have hsame : (d.check now).2 = d := by
          rw [not_and_or, not_not] at hused
          rcases hused with hoff | hzero
          · simp [check, hoff]
          · simp [check, hzero]
        rw [hsame]
        exact hnonneg

theorem allowedWithin_length (start stop : ℚ) (calls : List (Nat × Bool)) :
    (allowedWithin start stop calls).length =
      (grantedWithin start stop (calls.map fun call => (seconds call.1, call.2))).length := by
  rw [grantedWithin, List.filter_map, List.length_map]
  rfl

theorem checks_tokens (henabled : d.enabled = true) (hrps : d.rps ≠ 0) (hlevel : 0 ≤ d.tokens)
    (hmade : times ≠ []) :
    0 ≤ (d.checks times).2.tokens ∧ (d.checks times).2.tokens ≤ d.burst.toNat := by
  have hrate : (0 : ℚ) ≤ d.rps.toNat := Nat.cast_nonneg _
  have hcap : (0 : ℚ) ≤ d.burst.toNat := Nat.cast_nonneg _
  have hbounds := run_bounds hrate hcap (b := d.bucket) hlevel (times.map seconds)
  rw [← checks_run henabled hrps] at hbounds
  exact ⟨hbounds.1, hbounds.2 (by simpa using hmade)⟩

theorem seconds_le {now later : Nat} (h : now ≤ later) : seconds now ≤ seconds later :=
  div_le_div_of_nonneg_right (Nat.cast_le.mpr h) (by norm_num)

theorem checks_allowed_le (henabled : d.enabled = true) (hrps : d.rps ≠ 0) (hlevel : 0 ≤ d.tokens)
    (hsorted : times.Pairwise (· ≤ ·)) (start : ℚ) {length : ℚ} (hlength : 0 ≤ length) :
    ((allowedWithin start (start + length) (d.checks times).1).length : ℚ) ≤
      d.burst.toNat + d.rps.toNat * length := by
  have hrate : (0 : ℚ) ≤ d.rps.toNat := Nat.cast_nonneg _
  have hcap : (0 : ℚ) ≤ d.burst.toNat := Nat.cast_nonneg _
  have hstop : start ≤ start + length := le_add_of_nonneg_right hlength
  have hseconds : (times.map seconds).Pairwise (· ≤ ·) := by
    rw [List.pairwise_map]
    exact hsorted.imp seconds_le
  have hbound := granted_le hrate hcap hstop (b := d.bucket) hlevel hseconds
  rw [← checks_run henabled hrps, add_sub_cancel_left] at hbound
  rw [allowedWithin_length]
  exact hbound

theorem refilledTokens_of_refused (henabled : d.enabled = true) (hrps : d.rps ≠ 0)
    (hrefused : (d.check now).1 = false) : d.refilledTokens now < 1 := by
  rw [check_eq henabled hrps] at hrefused
  split at hrefused
  · cases hrefused
  · rename_i hfew
    exact not_le.mp hfew

/-- The calls on an enabled bucket, whatever its history. -/
theorem token_bucket_bound {rps burst : UInt32} {created : Nat} {history : List DdosMove}
    (hhistory : exec DdosMove.step (.new rps burst created) history = some d)
    (henabled : d.enabled = true) (hrps : 1 ≤ d.rps) (hsorted : times.Pairwise (· ≤ ·)) :
    (∀ made, made <+: times → made ≠ [] →
      0 ≤ (d.checks made).2.tokens ∧ (d.checks made).2.tokens ≤ d.burst.toNat) ∧
    (∀ start length : ℚ, 0 ≤ length →
      ((allowedWithin start (start + length) (d.checks times).1).length : ℚ) ≤
        d.burst.toNat + d.rps.toNat * length) ∧
    (∀ made now, made ++ [now] <+: times → ((d.checks made).2.check now).1 = false →
      (d.checks made).2.refilledTokens now < 1) ∧
    (d.checks times).2.blockedCount = d.blockedCount +
      .ofNat ((d.checks times).1.countP fun call => !call.2) := by
  have hne : d.rps ≠ 0 := by
    intro hzero
    rw [hzero] at hrps
    exact absurd hrps (by decide)
  have hlevel : 0 ≤ d.tokens := tokens_nonneg hhistory
  refine ⟨?_, ?_, ?_, checks_blockedCount henabled hne times⟩
  · intro made _ hmade
    exact checks_tokens henabled hne hlevel hmade
  · intro start length hlength
    exact checks_allowed_le henabled hne hlevel hsorted start hlength
  · intro made now _ hrefused
    obtain ⟨henabled', hrps', -⟩ := checks_settings d made
    exact refilledTokens_of_refused (henabled'.trans henabled) (hrps' ▸ hne) hrefused

/-- Enabled with one call a second and a burst of two, with two hundred tokens left over
from the settings before. -/
theorem token_bucket_bound_reconfigured :
    ∃ d, exec DdosMove.step (.new 100 200 0)
        [.check 5, .configure ⟨some true, some 0, some 2, none⟩] = some d ∧
      ((allowedWithin 0 (0 + 1) (d.checks [7, 8, 9, 1000000000]).1).length : ℚ) ≤ 2 + 1 * 1 := by
  refine ⟨_, rfl, ?_⟩
  have hhistory : exec DdosMove.step (.new 100 200 0)
      [.check 5, .configure ⟨some true, some 0, some 2, none⟩] = some
        ((new 100 200 0).configure ⟨some true, some 0, some 2, none⟩) := rfl
  obtain ⟨-, hbound, -, -⟩ := token_bucket_bound hhistory rfl (by decide)
    (by decide : [7, 8, 9, 1000000000].Pairwise (· ≤ ·))
  exact (hbound 0 1 zero_le_one).trans_eq rfl

end DDoSProtection

end Seamless.Relay
