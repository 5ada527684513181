import Seamless.Library.SlidingWindow
import Seamless.Relay.Admission

/-!
The rate limiter over a whole history of calls: the queue it keeps for an address is
as much of the history as the window still reaches, so that its answers are those of
the sliding-window limit.
-/

namespace Seamless.Relay

open Seamless.Library
open Seamless.Library.SlidingWindow

abbrev RateCall := Call String

namespace RateLimiter

/-- The limiter after the calls, with the calls that it allowed. -/
def record (cfg : Config) (s : List RateCall × RateTable) (c : RateCall) :
    List RateCall × RateTable :=
  let outcome := checkAndRecord cfg s.2 c.key c.time
  (if outcome.1 then s.1 ++ [c] else s.1, outcome.2)

def after (cfg : Config) (calls : List RateCall) : List RateCall × RateTable :=
  calls.foldl (record cfg) ([], ∅)

def allowedCalls (cfg : Config) (calls : List RateCall) : List RateCall := (after cfg calls).1

def table (cfg : Config) (calls : List RateCall) : RateTable := (after cfg calls).2

/-- The answer to a call that is made after others. -/
def allows (cfg : Config) (earlier : List RateCall) (c : RateCall) : Bool :=
  (checkAndRecord cfg (table cfg earlier) c.key c.time).1

def queue (table : RateTable) (ip : String) : List Nat := (table.lookup ip).getD []

/-- Every queue fits into the limit. -/
def Bounded (cfg : Config) (table : RateTable) : Prop :=
  ∀ ip, (queue table ip).length ≤ cfg.rateLimit.toNat

/-- As far as the window reaches from `now` on, the queue of an address has the times
of the calls that were allowed for it. -/
def Tracks (cfg : Config) (now : Nat) (allowed : List RateCall) (table : RateTable) : Prop :=
  ∀ ip later, now ≤ later → ((queue table ip).filter fun t => later - t < cfg.rateWindow) =
    (recent cfg.rateWindow ip later allowed).map Call.time

variable {cfg : Config} {rates : RateTable} {allowed calls earlier later : List RateCall}
  {c : RateCall} {ip : String} {now : Nat}

theorem after_snoc (cfg : Config) (calls : List RateCall) (c : RateCall) :
    after cfg (calls ++ [c]) = record cfg (after cfg calls) c := by
  simp [after]

theorem queue_insert_self (rates : RateTable) (ip : String) (times : List Nat) :
    queue (rates.insert ip times) ip = times := by
  simp [queue]

theorem queue_insert_ne {ip' : String} (h : ip' ≠ ip) (rates : RateTable) (times : List Nat) :
    queue (rates.insert ip times) ip' = queue rates ip' := by
  simp [queue, AList.lookup_insert_ne h]

theorem length_pruned_lt (hbounded : Bounded cfg rates) (ip : String) (now : Nat) :
    ((queue rates ip).filter fun t => now - t < cfg.rateWindow).length < 2 ^ 32 := by
  have hpruned := List.length_filter_le (fun t : Nat => decide (now - t < cfg.rateWindow))
    (queue rates ip)
  have hlimit := cfg.rateLimit.toNat_lt
  have hstored := hbounded ip
  omega

theorem checkAndRecord_eq (hlimit : 0 < cfg.rateLimit) (hbounded : Bounded cfg rates) (ip : String)
    (now : Nat) :
    let kept := (queue rates ip).filter fun t => now - t < cfg.rateWindow
    checkAndRecord cfg rates ip now =
      if kept.length < cfg.rateLimit.toNat then (true, rates.insert ip (kept ++ [now]))
      else (false, rates.insert ip kept) := by
  intro kept
  have hne : cfg.rateLimit ≠ 0 := by
    rintro hzero
    simp [hzero] at hlimit
  have hexact : kept.length % 2 ^ 32 = kept.length :=
    Nat.mod_eq_of_lt (length_pruned_lt hbounded ip now)
  simp only [checkAndRecord, if_neg hne]
  change (if cfg.rateLimit.toNat ≤ kept.length % 2 ^ 32 then (false, rates.insert ip kept)
    else (true, rates.insert ip (kept ++ [now]))) = _
  rw [hexact]
  split
  · rw [if_neg (by omega)]
  · rw [if_pos (by omega)]

theorem bounded_insert {times : List Nat} (hbounded : Bounded cfg rates)
    (htimes : times.length ≤ cfg.rateLimit.toNat) : Bounded cfg (rates.insert ip times) := by
  intro ip'
  by_cases hip : ip' = ip
  · subst hip
    rwa [queue_insert_self]
  · rw [queue_insert_ne hip]
    exact hbounded ip'

theorem bounded_checkAndRecord (hlimit : 0 < cfg.rateLimit) (hbounded : Bounded cfg rates) :
    Bounded cfg (checkAndRecord cfg rates ip now).2 := by
  rw [checkAndRecord_eq hlimit hbounded]
  split
  · rename_i hroom
    apply bounded_insert hbounded
    rw [List.length_append, List.length_singleton]
    omega
  · apply bounded_insert hbounded
    exact (List.length_filter_le _ _).trans (hbounded ip)

theorem bounded_table (hlimit : 0 < cfg.rateLimit) (calls : List RateCall) :
    Bounded cfg (table cfg calls) := by
  induction calls using List.reverseRecOn with
  | nil =>
      intro ip
      simp [table, after, queue]
  | append_singleton calls c ih =>
      rw [table, after_snoc]
      exact bounded_checkAndRecord hlimit ih

theorem Tracks.mono {now' : Nat} (h : Tracks cfg now allowed rates) (hle : now ≤ now') :
    Tracks cfg now' allowed rates :=
  fun ip later hlater => h ip later (hle.trans hlater)

theorem filter_pruned {window later : Nat} (hlater : now ≤ later) (times : List Nat) :
    ((times.filter fun t => now - t < window).filter fun t => later - t < window) =
      times.filter fun t => later - t < window := by
  rw [List.filter_filter]
  apply List.filter_congr
  intro t _
  by_cases ht : later - t < window
  · have hnow : now - t < window := by omega
    simp [ht, hnow]
  · simp [ht]

theorem tracks_insert {times : List Nat} {allowed' : List RateCall}
    (h : Tracks cfg now allowed rates)
    (htimes : ∀ later, now ≤ later → (times.filter fun t => later - t < cfg.rateWindow) =
      (recent cfg.rateWindow ip later allowed').map Call.time)
    (hothers : ∀ ip', ip' ≠ ip → ∀ later,
      recent cfg.rateWindow ip' later allowed' = recent cfg.rateWindow ip' later allowed) :
    Tracks cfg now allowed' (rates.insert ip times) := by
  intro ip' later hlater
  by_cases hip : ip' = ip
  · subst hip
    rw [queue_insert_self]
    exact htimes later hlater
  · rw [queue_insert_ne hip, hothers ip' hip later]
    exact h ip' later hlater

theorem recent_snoc_ne {key : String} (hkey : c.key ≠ key) (window later : Nat)
    (allowed : List RateCall) :
    recent window key later (allowed ++ [c]) = recent window key later allowed := by
  rw [recent, List.filter_append, List.filter_cons_of_neg (by simp [hkey]), List.filter_nil,
    List.append_nil, recent]

/-- The limiter answers as the sliding-window limit does. -/
theorem checkAndRecord_answer (hlimit : 0 < cfg.rateLimit) (hbounded : Bounded cfg rates)
    (h : Tracks cfg c.time allowed rates) :
    (checkAndRecord cfg rates c.key c.time).1 =
      grants cfg.rateLimit.toNat cfg.rateWindow allowed c := by
  have hlength := congrArg List.length (h c.key c.time le_rfl)
  rw [List.length_map] at hlength
  rw [checkAndRecord_eq hlimit hbounded, grants, ← hlength]
  split
  · rename_i hroom
    exact (decide_eq_true hroom).symm
  · rename_i hfull
    exact (decide_eq_false hfull).symm

theorem tracks_record (hlimit : 0 < cfg.rateLimit) (hbounded : Bounded cfg rates)
    (h : Tracks cfg c.time allowed rates) :
    Tracks cfg c.time (record cfg (allowed, rates) c).1 (record cfg (allowed, rates) c).2 := by
  have hkept := h c.key
  simp only [record, checkAndRecord_eq hlimit hbounded]
  split
  · simp only [if_true]
    apply tracks_insert h
    · intro later hlater
      rw [List.filter_append, filter_pruned hlater, hkept later hlater, recent, recent,
        List.filter_append, List.map_append]
      by_cases hreach : later - c.time < cfg.rateWindow <;> simp [hreach]
    · intro ip hip later
      exact recent_snoc_ne (Ne.symm hip) _ _ _
  · simp only [Bool.false_eq_true, if_false]
    apply tracks_insert h
    · intro later hlater
      rw [filter_pruned hlater, hkept later hlater]
    · intro ip _ later
      rfl

theorem tracks_after (hlimit : 0 < cfg.rateLimit) (h : Chronological calls)
    (hnow : ∀ c ∈ calls, c.time ≤ now) :
    Tracks cfg now (allowedCalls cfg calls) (table cfg calls) := by
  induction calls using List.reverseRecOn generalizing now with
  | nil =>
      intro ip later _
      simp [allowedCalls, table, after, queue, recent]
  | append_singleton calls c ih =>
      have hbefore : Tracks cfg c.time (allowedCalls cfg calls) (table cfg calls) :=
        ih h.init fun d hd => h.le_last hd
      have hstep := tracks_record hlimit (bounded_table hlimit calls) hbefore
      rw [allowedCalls, table, after_snoc]
      exact hstep.mono (hnow c (by simp))

theorem allows_eq_grants (hlimit : 0 < cfg.rateLimit) (h : Chronological (earlier ++ [c])) :
    allows cfg earlier c =
      grants cfg.rateLimit.toNat cfg.rateWindow (allowedCalls cfg earlier) c := by
  apply checkAndRecord_answer hlimit (bounded_table hlimit earlier)
  exact tracks_after hlimit h.init fun d hd => h.le_last hd

theorem allowedCalls_eq_granted (hlimit : 0 < cfg.rateLimit) (h : Chronological calls) :
    allowedCalls cfg calls = granted cfg.rateLimit.toNat cfg.rateWindow calls := by
  induction calls using List.reverseRecOn with
  | nil => simp [allowedCalls, after, granted]
  | append_singleton calls c ih =>
      have hanswer := allows_eq_grants hlimit h
      rw [ih h.init] at hanswer
      rw [granted_snoc, grant, ← hanswer, ← ih h.init, allowedCalls, after_snoc]
      rfl

theorem allows_of_refused {between : List RateCall} {d : RateCall} (hlimit : 0 < cfg.rateLimit)
    (h : Chronological (earlier ++ c :: between ++ [d])) (hrefused : allows cfg earlier c = false) :
    allows cfg (earlier ++ c :: between) d = allows cfg (earlier ++ between) d := by
  have hshort : (earlier ++ between ++ [d]).Sublist (earlier ++ c :: between ++ [d]) :=
    ((List.Sublist.refl _).append (List.sublist_cons_self c between)).append (List.Sublist.refl _)
  have hfirst : (earlier ++ [c]).Sublist (earlier ++ c :: between ++ [d]) := by
    simp
  rw [allows_eq_grants hlimit (h.sublist hfirst), allowedCalls_eq_granted hlimit
    (h.sublist hfirst).init] at hrefused
  rw [allows_eq_grants hlimit h, allows_eq_grants hlimit (h.sublist hshort),
    allowedCalls_eq_granted hlimit h.init, allowedCalls_eq_granted hlimit (h.sublist hshort).init,
    granted_of_refused hrefused]

theorem allows_filter_key (hlimit : 0 < cfg.rateLimit) (h : Chronological (earlier ++ [c])) :
    allows cfg (earlier.filter fun d => d.key = c.key) c = allows cfg earlier c := by
  have hown : ((earlier.filter fun d => d.key = c.key) ++ [c]).Sublist (earlier ++ [c]) :=
    List.filter_sublist.append (List.Sublist.refl _)
  rw [allows_eq_grants hlimit h, allows_eq_grants hlimit (h.sublist hown),
    allowedCalls_eq_granted hlimit h.init, allowedCalls_eq_granted hlimit (h.sublist hown).init,
    grants_filter_key]

/-- The limiter is exact: a call is allowed when and only when the window has room for
it; calls that were refused and calls of other addresses have no say in it. -/
theorem rateLimiter_exact (cfg : Config) (hlimit : 0 < cfg.rateLimit) (calls : List RateCall)
    (h : Chronological calls) :
    (∀ earlier c later, calls = earlier ++ c :: later →
      (allows cfg earlier c = true ↔ ((allowedCalls cfg earlier).filter fun d =>
        d.key = c.key ∧ c.time - d.time < cfg.rateWindow).length < cfg.rateLimit.toNat) ∧
      (allows cfg earlier c = false → ∀ between d rest, later = between ++ d :: rest →
        allows cfg (earlier ++ c :: between) d = allows cfg (earlier ++ between) d) ∧
      allows cfg earlier c = allows cfg (earlier.filter fun d => d.key = c.key) c) ∧
    (∀ ip start, ((allowedCalls cfg calls).filter fun d =>
      d.key = ip ∧ start ≤ d.time ∧ d.time < start + cfg.rateWindow).length ≤
        cfg.rateLimit.toNat) ∧
    (∀ ip times, (table cfg calls).lookup ip = some times →
      times.length ≤ cfg.rateLimit.toNat ∧ times.length % 2 ^ 32 = times.length) := by
  refine ⟨?_, ?_, ?_⟩
  · rintro earlier c later rfl
    have hcall : Chronological (earlier ++ [c]) := h.sublist (by simp)
    refine ⟨?_, ?_, ?_⟩
    · rw [allows_eq_grants hlimit hcall, grants, recent]
      simp
    · rintro hrefused between d rest rfl
      exact allows_of_refused hlimit (h.sublist (by simp)) hrefused
    · exact (allows_filter_key hlimit hcall).symm
  · intro ip start
    rw [allowedCalls_eq_granted hlimit h]
    exact length_within_granted_le h ip start
  · intro ip times htimes
    have hstored := bounded_table hlimit calls ip
    rw [queue, htimes, Option.getD_some] at hstored
    have hfits := cfg.rateLimit.toNat_lt
    exact ⟨hstored, Nat.mod_eq_of_lt (by omega)⟩

theorem rateLimiter_exact_twoPerTen :
    let cfg := { Config.unlimited "r" with rateLimit := 2, rateWindow := 10 }
    let calls : List RateCall := [⟨"a", 0⟩, ⟨"a", 3⟩, ⟨"b", 4⟩, ⟨"a", 9⟩, ⟨"a", 10⟩]
    allowedCalls cfg calls = [⟨"a", 0⟩, ⟨"a", 3⟩, ⟨"b", 4⟩, ⟨"a", 10⟩] ∧
      ∀ start, ((allowedCalls cfg calls).filter fun d =>
        d.key = "a" ∧ start ≤ d.time ∧ d.time < start + 10).length ≤ 2 := by
  intro cfg calls
  have hchronological : Chronological calls := by
    unfold Chronological
    decide
  exact ⟨by decide +kernel, (rateLimiter_exact cfg (by decide) calls hchronological).2.1 "a"⟩

end RateLimiter

end Seamless.Relay
