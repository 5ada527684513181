import Seamless.Client.Reconnect

/-!
The schedule of the reconnect loop: how the failures in a row decide how long the client
pauses before the next session, and when it gives up.
-/

namespace Seamless.Client

open Seamless.Common
open Seamless.Library.TransitionSystem

/-- How a call of `run_session` has returned. -/
abbrev RunOutcome := Except RunError Unit

def RunOutcome.isFailure : RunOutcome → Bool
  | .error _ => true
  | .ok _ => false

def RunOutcome.isPermanent (settings : Settings) : RunOutcome → Bool
  | .error e => e.isPermanent settings.debug
  | .ok _ => false

/-- The failures since the last session that ended cleanly. -/
def streak (outcomes : List RunOutcome) : Nat :=
  (outcomes.reverse.takeWhile RunOutcome.isFailure).length

/-- The seconds before the next session after that many failures in a row. The loop counts
them in 32 bits. -/
def pause (failures : Nat) : Nat :=
  if failures = 0 ∨ failures % 2 ^ 32 = 1 then 0
  else if failures % 2 ^ 32 = 0 then 30
  else min 30 (2 ^ (failures % 2 ^ 32 - 2))

def Session.outcome (s : Session) : Option RunOutcome :=
  match s.pc with
  | .ended result => some (result.mapError .session)
  | _ => none

namespace Reconnect

/-- How the session ends in a step of the loop, if it does. -/
def ending (l : Reconnect) : LoopInput → Option RunOutcome
  | .bindFailed text => some (.error (.bind text))
  | .connectFailed text => some (.error (.connect text))
  | .session input =>
      match l.pc with
      | .running session => (session.step input).bind Session.outcome
      | _ => none
  | .slept | .ctrlC | .connected => none

/-- The outcomes of the sessions of a run, in their order. -/
def outcomes (settings : Settings) : Reconnect → List LoopInput → List RunOutcome
  | _, [] => []
  | l, input :: inputs =>
      (l.ending input).toList ++
        match l.step settings input with
        | some l' => outcomes settings l' inputs
        | none => []

end Reconnect

def LoopPc.hasExited : LoopPc → Bool
  | .exited _ => true
  | _ => false

/-- Where the loop stands after these sessions. -/
inductive OnSchedule (settings : Settings) (outcomes : List RunOutcome) (l : Reconnect) : Prop
  | active (hpc : l.pc.hasExited = false) (hcounted : l.attempts = .ofNat (streak outcomes))
      (hpause : l.backoff.getD 0 = pause (streak outcomes))
      (hsleeping : l.pc = .sleeping → 0 < pause (streak outcomes))
      (hbudget : settings.maxRetries ≠ 0 → streak outcomes < settings.maxRetries.toNat)
      (hretried : ∀ o ∈ outcomes, o.isPermanent settings = false)
  | interrupted (hpc : l.pc = .exited .ctrlC)
      (hbudget : settings.maxRetries ≠ 0 → streak outcomes < settings.maxRetries.toNat)
      (hretried : ∀ o ∈ outcomes, o.isPermanent settings = false)
  | gaveUp (hpc : l.pc = .exited (.gaveUp settings.maxRetries))
      (hlimited : settings.maxRetries ≠ 0)
      (hspent : streak outcomes = settings.maxRetries.toNat)
      (hretried : ∀ o ∈ outcomes, o.isPermanent settings = false)
  | refused {before : List RunOutcome} {e : RunError} (hpc : l.pc = .exited (.permanent e))
      (hlast : outcomes = before ++ [.error e]) (hpermanent : e.isPermanent settings.debug = true)
      (hretried : ∀ o ∈ before, o.isPermanent settings = false)

section Streak

variable {outcomes : List RunOutcome}

@[simp] theorem streak_nil : streak [] = 0 := rfl

theorem streak_ok (outcomes : List RunOutcome) : streak (outcomes ++ [.ok ()]) = 0 := by
  rw [streak, List.reverse_append, List.reverse_singleton, List.singleton_append,
    List.takeWhile_cons_of_neg (by exact Bool.false_ne_true)]
  rfl

theorem streak_error (outcomes : List RunOutcome) (e : RunError) :
    streak (outcomes ++ [.error e]) = streak outcomes + 1 := by
  rw [streak, List.reverse_append, List.reverse_singleton, List.singleton_append,
    List.takeWhile_cons_of_pos (by rfl)]
  rfl

@[simp] theorem pause_zero : pause 0 = 0 := rfl

theorem ofNat_eq_iff {n : Nat} {a : UInt32} : UInt32.ofNat n = a ↔ n % 2 ^ 32 = a.toNat := by
  rw [← UInt32.toNat_inj, UInt32.toNat_ofNat']

theorem backoffAfter_eq_pause {n : Nat} (hn : n ≠ 0) :
    (backoffAfter (.ofNat n)).getD 0 = pause n := by
  unfold backoffAfter pause
  simp only [ofNat_eq_iff, hn, false_or]
  generalize n % 2 ^ 32 = m
  simp only [UInt32.reduceToNat]
  by_cases hsmall : m ≤ 6
  · revert m
    decide
  · have hlarge : 30 ≤ 2 ^ (m - 2) :=
      Nat.le_trans (by decide : 30 ≤ 2 ^ 5) (Nat.pow_le_pow_right (by decide) (by omega))
    rw [if_neg (by omega), if_neg (by omega), if_neg (by omega), if_neg (by omega),
      if_neg (by omega), if_neg (by omega), if_neg (by omega), if_neg (by omega),
      Nat.min_eq_left hlarge]
    rfl

theorem backoffAfter_pos {a : UInt32} {seconds : Nat} (h : backoffAfter a = some seconds) :
    0 < seconds := by
  unfold backoffAfter at h
  repeat (split at h; · cases h <;> decide)
  cases h
  decide

end Streak

/-- What a step of the loop can do. -/
inductive LoopStep (settings : Settings) (l : Reconnect) : LoopInput → Reconnect → Prop
  | slept (hpc : l.pc = .sleeping) : LoopStep settings l .slept { l with pc := .connecting }
  | interrupted (hpc : l.pc.hasExited = false) :
      LoopStep settings l .ctrlC { l with pc := .exited .ctrlC }
  | connected (hpc : l.pc = .connecting) :
      LoopStep settings l .connected
        { l with pc := .running (.opened settings.token settings.kind) }
  | went {input : SessionInput} {session : Session} (hpc : l.pc.hasExited = false)
      (hending : l.ending (.session input) = none) :
      LoopStep settings l (.session input) { l with pc := .running session }
  | ended {input : LoopInput} {o : RunOutcome} (hpc : l.pc.hasExited = false)
      (hending : l.ending input = some o) :
      LoopStep settings l input (l.afterSession settings o)

namespace Reconnect

variable {settings : Settings} {l l' : Reconnect} {input : LoopInput}

theorem step_cases (hstep : l.step settings input = some l') : LoopStep settings l input l' := by
  cases input with
  | slept =>
      simp only [step] at hstep
      split at hstep
      · rename_i hpc
        cases hstep
        exact .slept hpc
      · cases hstep
  | ctrlC =>
      simp only [step] at hstep
      split at hstep
      · cases hstep
      · rename_i hpc
        cases hstep
        refine .interrupted ?_
        cases hexited : l.pc <;> first | rfl | exact absurd hexited (hpc _)
  | bindFailed text =>
      simp only [step] at hstep
      split at hstep
      · rename_i hpc
        cases hstep
        exact .ended (by rw [hpc]; rfl) rfl
      · cases hstep
  | connectFailed text =>
      simp only [step] at hstep
      split at hstep
      · rename_i hpc
        cases hstep
        exact .ended (by rw [hpc]; rfl) rfl
      · cases hstep
  | connected =>
      simp only [step] at hstep
      split at hstep
      · rename_i hpc
        cases hstep
        exact .connected hpc
      · cases hstep
  | session input =>
      simp only [step] at hstep
      split at hstep
      · rename_i session hpc
        obtain ⟨session', hsession, rfl⟩ := Option.map_eq_some_iff.mp hstep
        have hactive : l.pc.hasExited = false := by rw [hpc]; rfl
        have hending : l.ending (.session input) = session'.outcome := by
          simp only [ending, hpc, hsession, Option.bind_some]
        unfold afterStep
        split
        · rename_i result hended
          refine .ended hactive ?_
          rw [hending, Session.outcome, hended]
        · rename_i hgoing
          refine .went hactive ?_
          rw [hending, Session.outcome]
          split
          · rename_i result hended
            exact absurd hended (hgoing result)
          · rfl
      · cases hstep

theorem outcomes_snoc {inputs : List LoopInput} {start : Reconnect}
    (hexec : exec (step settings) start inputs = some l) (input : LoopInput) :
    outcomes settings start (inputs ++ [input]) =
      outcomes settings start inputs ++ (l.ending input).toList := by
  induction inputs generalizing start with
  | nil =>
      obtain rfl := Option.some.inj hexec
      cases hstep : start.step settings input <;> simp [outcomes, hstep]
  | cons first rest ih =>
      obtain ⟨m, hfirst, hrest⟩ := Option.bind_eq_some_iff.mp hexec
      simp only [List.cons_append, outcomes, hfirst, ih hrest, List.append_assoc]

end Reconnect

theorem Reconnect.backoff_next {attempts : UInt32} {backoff : Option Nat}
    (hpc : (next attempts backoff).pc = .connecting) : backoff = none := by
  cases backoff with
  | none => rfl
  | some seconds => cases hpc

theorem Reconnect.backoff_afterSession {settings : Settings} {l : Reconnect} {o : RunOutcome}
    (hpc : (l.afterSession settings o).pc = .connecting) :
    (l.afterSession settings o).backoff = none := by
  cases o with
  | ok u => rfl
  | error e =>
      rw [afterSession] at hpc ⊢
      split at hpc
      · cases hpc
      · rename_i hpermanent
        rw [if_neg hpermanent]
        dsimp only at hpc ⊢
        split at hpc
        · cases hpc
        · rename_i hspent
          rw [if_neg hspent]
          exact backoff_next hpc

section Schedule

variable {settings : Settings} {outcomes : List RunOutcome} {l l' : Reconnect} {input : LoopInput}

theorem maxRetries_pos (hlimited : settings.maxRetries ≠ 0) : 0 < settings.maxRetries.toNat :=
  Nat.pos_of_ne_zero fun hzero => hlimited (UInt32.toNat_inj.mp hzero)

theorem onSchedule_started (settings : Settings) : OnSchedule settings [] .started :=
  .active rfl rfl rfl (by simp [Reconnect.started]) maxRetries_pos (by simp)

theorem OnSchedule.next {backoff : Option Nat}
    (hpause : backoff.getD 0 = pause (streak outcomes))
    (hpositive : ∀ seconds, backoff = some seconds → 0 < seconds)
    (hbudget : settings.maxRetries ≠ 0 → streak outcomes < settings.maxRetries.toNat)
    (hretried : ∀ o ∈ outcomes, o.isPermanent settings = false) :
    OnSchedule settings outcomes (.next (.ofNat (streak outcomes)) backoff) := by
  cases backoff with
  | none => exact .active rfl rfl hpause (by simp [Reconnect.next]) hbudget hretried
  | some seconds =>
      refine .active rfl rfl hpause (fun _ => ?_) hbudget hretried
      rw [← hpause]
      exact hpositive seconds rfl

theorem OnSchedule.of_active (h : OnSchedule settings outcomes l) (hpc : l.pc.hasExited = false) :
    l.attempts = .ofNat (streak outcomes) ∧ l.backoff.getD 0 = pause (streak outcomes) ∧
      (settings.maxRetries ≠ 0 → streak outcomes < settings.maxRetries.toNat) ∧
      ∀ o ∈ outcomes, o.isPermanent settings = false := by
  cases h with
  | active _ hcounted hpause _ hbudget hretried => exact ⟨hcounted, hpause, hbudget, hretried⟩
  | interrupted hexited => simp [hexited, LoopPc.hasExited] at hpc
  | gaveUp hexited => simp [hexited, LoopPc.hasExited] at hpc
  | refused hexited => simp [hexited, LoopPc.hasExited] at hpc

theorem OnSchedule.ended (h : OnSchedule settings outcomes l) (hpc : l.pc.hasExited = false)
    (o : RunOutcome) : OnSchedule settings (outcomes ++ [o]) (l.afterSession settings o) := by
  obtain ⟨hcounted, -, hbudget, hretried⟩ := h.of_active hpc
  have hall : o.isPermanent settings = false →
      ∀ o' ∈ outcomes ++ [o], o'.isPermanent settings = false := by
    intro ho o' hmem
    rcases List.mem_append.mp hmem with hold | hnew
    · exact hretried o' hold
    · rwa [List.mem_singleton.mp hnew]
  cases o with
  | ok u =>
      have hstreak : streak (outcomes ++ [.ok u]) = 0 := streak_ok outcomes
      rw [Reconnect.afterSession]
      have hunlimited : settings.maxRetries ≠ 0 →
          streak (outcomes ++ [.ok u]) < settings.maxRetries.toNat := by
        intro hlimited
        rw [hstreak]
        exact maxRetries_pos hlimited
      have hnext : OnSchedule settings (outcomes ++ [.ok u])
          (.next (.ofNat (streak (outcomes ++ [.ok u]))) none) :=
        .next (by rw [hstreak]; rfl) (by simp) hunlimited (hall rfl)
      rwa [hstreak] at hnext
  | error e =>
      have hstreak := streak_error outcomes e
      rw [Reconnect.afterSession]
      split
      · rename_i hpermanent
        exact .refused rfl rfl hpermanent hretried
      · rename_i hpermanent
        have hretry := hall (Bool.eq_false_iff.mpr hpermanent)
        have hattempts : l.attempts + 1 = .ofNat (streak (outcomes ++ [.error e])) := by
          rw [hcounted, hstreak, UInt32.ofNat_add]
          rfl
        rw [hattempts]
        dsimp only
        -- With a limit the count is below it, so that it has not wrapped.
        split
        · rename_i hspent
          obtain ⟨hlimited, hle⟩ := hspent
          have hbelow := hbudget hlimited
          have hcount : (UInt32.ofNat (streak (outcomes ++ [.error e]))).toNat =
              streak (outcomes ++ [.error e]) := by
            rw [UInt32.toNat_ofNat']
            have := settings.maxRetries.toNat_lt
            exact Nat.mod_eq_of_lt (by omega)
          have hreached : streak (outcomes ++ [.error e]) = settings.maxRetries.toNat := by
            rw [UInt32.le_iff_toNat_le, hcount] at hle
            omega
          have hexact : UInt32.ofNat (streak (outcomes ++ [.error e])) = settings.maxRetries := by
            rw [hreached, UInt32.ofNat_toNat]
          rw [hexact]
          exact .gaveUp rfl hlimited hreached hretry
        · rename_i hspent
          refine OnSchedule.next (backoffAfter_eq_pause (by omega)) (fun _ => backoffAfter_pos)
            ?_ hretry
          intro hlimited
          have hbelow := hbudget hlimited
          have hmore : ¬ settings.maxRetries ≤ .ofNat (streak (outcomes ++ [.error e])) :=
            fun hle => hspent ⟨hlimited, hle⟩
          rw [UInt32.le_iff_toNat_le, UInt32.toNat_ofNat'] at hmore
          have := settings.maxRetries.toNat_lt
          rw [Nat.mod_eq_of_lt (by omega)] at hmore
          omega

theorem OnSchedule.step (h : OnSchedule settings outcomes l)
    (hstep : l.step settings input = some l') :
    OnSchedule settings (outcomes ++ (l.ending input).toList) l' := by
  cases Reconnect.step_cases hstep with
  | slept hpc =>
      obtain ⟨hcounted, hpause, hbudget, hretried⟩ := h.of_active (by rw [hpc]; rfl)
      simp only [Reconnect.ending, Option.toList_none, List.append_nil]
      exact .active rfl hcounted hpause (by simp) hbudget hretried
  | interrupted hpc =>
      obtain ⟨-, -, hbudget, hretried⟩ := h.of_active hpc
      simp only [Reconnect.ending, Option.toList_none, List.append_nil]
      exact .interrupted rfl hbudget hretried
  | connected hpc =>
      obtain ⟨hcounted, hpause, hbudget, hretried⟩ := h.of_active (by rw [hpc]; rfl)
      simp only [Reconnect.ending, Option.toList_none, List.append_nil]
      exact .active rfl hcounted hpause (by simp) hbudget hretried
  | went hpc hending =>
      obtain ⟨hcounted, hpause, hbudget, hretried⟩ := h.of_active hpc
      rw [hending, Option.toList_none, List.append_nil]
      exact .active rfl hcounted hpause (by simp) hbudget hretried
  | @ended _ o hpc hending =>
      rw [hending, Option.toList_some]
      exact h.ended hpc o

theorem onSchedule_run {inputs : List LoopInput}
    (hrun : FreeRun (Reconnect.step settings) .started inputs l) :
    OnSchedule settings (Reconnect.outcomes settings .started inputs) l := by
  induction hrun with
  | nil => exact onSchedule_started settings
  | snoc hinit _ hlast ih =>
      rw [Reconnect.outcomes_snoc hinit.exec]
      exact ih.step hlast

end Schedule

/-- In every run the client tries again as it should: after each failure but a permanent one,
with the pauses of the schedule and none after a clean end, until it has failed as often in a
row as it may. It never begins a session before the pause is over. -/
theorem reconnect_schedule (settings : Settings) (inputs : List LoopInput) (l : Reconnect)
    (hrun : FreeRun (Reconnect.step settings) .started inputs l) :
    OnSchedule settings (Reconnect.outcomes settings .started inputs) l ∧
      ∀ input l', l.step settings input = some l' → l'.pc = .connecting →
        input = .slept ∨
          pause (streak (Reconnect.outcomes settings .started (inputs ++ [input]))) = 0 := by
  have hschedule := onSchedule_run hrun
  refine ⟨hschedule, ?_⟩
  intro input l' hstep hpc
  have hnext := hschedule.step hstep
  rw [Reconnect.outcomes_snoc hrun.exec]
  cases Reconnect.step_cases hstep with
  | slept => exact .inl rfl
  | interrupted => cases hpc
  | connected => cases hpc
  | went => cases hpc
  | @ended _ o hactive hending =>
      right
      obtain ⟨-, hpause, -⟩ := hnext.of_active (by rw [hpc]; rfl)
      rw [Reconnect.backoff_afterSession hpc] at hpause
      exact hpause.symm

def threeRetries : Settings := ⟨none, .http none, 3, fun _ => ""⟩

/-- The relay is not there. The second attempt follows at once, the third after a second. -/
def unreachableRelay : List LoopInput :=
  [.connectFailed "timed out", .bindFailed "no address", .slept, .connectFailed "timed out"]

theorem reconnect_schedule_unreachable :
    ∃ l, FreeRun (Reconnect.step threeRetries) .started unreachableRelay l ∧
      l.attempts = 3 ∧
      OnSchedule threeRetries (Reconnect.outcomes threeRetries .started unreachableRelay) l := by
  have hexec : (exec (Reconnect.step threeRetries) .started unreachableRelay).map
      Reconnect.attempts = some 3 := by
    decide +kernel
  obtain ⟨l, hrun, hattempts⟩ := exists_freeRun hexec
  exact ⟨l, hrun, hattempts, (reconnect_schedule threeRetries _ l hrun).1⟩

end Seamless.Client
