import Mathlib.Data.List.TakeWhile
import Mathlib.Logic.Function.Basic
import Seamless.Library.TransitionSystem

/-!
The background health checks of one tunnel. Every added backend starts a task, every task
checks the whole list in rounds and counts failures on its own, and all of them write the
one flag of a backend. A task that knows the outcome of a probe records it in a step of its
own, so that other tasks can come between. Backends are numbered in the order of addition.
-/

namespace Seamless.Relay

open Seamless.Library.TransitionSystem

namespace HealthChecks

/-- `checking queue` is a task that probes the head of the queue next, or waits for its
next tick when there is none. -/
inductive Phase where
  | checking (queue : List Nat)
  | probed (backend : Nat) (ok : Bool) (queue : List Nat)
  | ended

/-- `failCounts` is `0` for what is not in the map. -/
structure Task where
  failCounts : Nat → UInt32
  phase : Phase

/-- `probes` records the background probes with their outcomes, the last one first. -/
structure State where
  list : List Nat
  added : Nat
  healthy : Nat → Bool
  tasks : List Task
  probes : List (Nat × Bool)

inductive Move where
  | addBackend
  | removeBackend (backend : Nat)
  | forceHealthCheck (backend : Nat) (ok : Bool)
  | tick (task : Nat)
  | probe (task : Nat) (ok : Bool)
  | record (task : Nat)

def State.start : State := ⟨[], 0, fun _ => true, [], []⟩

/-- The count that a task has once it has recorded the outcome of a probe. -/
def Task.counted (task : Task) (backend : Nat) (ok : Bool) : UInt32 :=
  if ok then 0 else task.failCounts backend + 1

/-- What the flag of the backend becomes with it. -/
def Task.flag (task : Task) (backend : Nat) (ok healthy : Bool) : Bool :=
  if ok then true else if 3 ≤ task.counted backend ok then false else healthy

def State.setTask (s : State) (i : Nat) (task : Task) : State :=
  { s with tasks := s.tasks.set i task }

def State.step (s : State) : Move → Option State
  | .addBackend =>
      some { s with
        list := s.list ++ [s.added]
        added := s.added + 1
        tasks := s.tasks ++ [⟨fun _ => 0, .checking []⟩] }
  | .removeBackend backend =>
      if backend ∈ s.list then some { s with list := s.list.filter (· ≠ backend) } else none
  | .forceHealthCheck backend ok =>
      if backend < s.added then some { s with healthy := Function.update s.healthy backend ok }
      else none
  | .tick i =>
      s.tasks[i]?.bind fun task =>
        match task.phase with
        | .checking [] =>
            let phase := if s.list.isEmpty then .ended else .checking s.list
            some (s.setTask i { task with phase := phase })
        | _ => none
  | .probe i ok =>
      s.tasks[i]?.bind fun task =>
        match task.phase with
        | .checking (backend :: queue) =>
            some { s.setTask i { task with phase := .probed backend ok queue } with
              probes := (backend, ok) :: s.probes }
        | _ => none
  | .record i =>
      s.tasks[i]?.bind fun task =>
        match task.phase with
        | .probed backend ok queue =>
            let failCounts :=
              Function.update task.failCounts backend (task.counted backend ok)
            some { s.setTask i ⟨failCounts, .checking queue⟩ with
              healthy := Function.update s.healthy backend
                (task.flag backend ok (s.healthy backend)) }
        | _ => none

/-- The outcomes of the background probes of a backend, the last one first. -/
def State.outcomes (s : State) (backend : Nat) : List Bool :=
  (s.probes.filter fun p => p.1 = backend).map Prod.snd

/-- A background task takes away the flag of a backend of which not all of the last three
probes have failed. -/
def Premature (s : State) (move : Move) : Prop :=
  ∃ i backend s', move = .record i ∧ s.step move = some s' ∧ s.healthy backend = true ∧
    s'.healthy backend = false ∧ (s.outcomes backend).take 3 ≠ [false, false, false]

/-- The failures of the backend that a task has counted, the outcome at hand included. -/
def Task.failures (task : Task) (backend : Nat) : Nat :=
  match task.phase with
  | .probed b ok _ => (if b = backend then task.counted b ok else task.failCounts backend).toNat
  | _ => (task.failCounts backend).toNat

/-- The backend that the task probes next. -/
def State.nextProbe (s : State) (i : Nat) : Option Nat :=
  s.tasks[i]?.bind fun task =>
    match task.phase with
    | .checking (backend :: _) => some backend
    | _ => none

/-- A probe that succeeds finds no other task with failures of the backend. -/
def undisturbed (s : State) : Move → Bool
  | .probe i true =>
      (s.nextProbe i).all fun backend =>
        s.tasks.zipIdx.all fun (other, j) => j == i || other.failures backend == 0
  | _ => true

section Counting

variable {s s' : State} {move : Move} {i : Nat} {task : Task} {backend : Nat} {ok : Bool}

/-- The failures since the last success, over all tasks. -/
def State.trailing (s : State) (backend : Nat) : Nat :=
  ((s.outcomes backend).takeWhile fun ok => !ok).length

/-- No task has counted more failures than there were in a row. -/
def State.Counted (s : State) : Prop :=
  ∀ (i : Nat) (task : Task), s.tasks[i]? = some task →
    ∀ backend, task.failures backend ≤ s.trailing backend

theorem counted_start : State.start.Counted := by
  intro i task htask
  simp [State.start] at htask

theorem trailing_failed (s : State) (tasks : List Task) (backend b : Nat) :
    ({ s with tasks := tasks, probes := (backend, false) :: s.probes } : State).trailing b =
      s.trailing b + if backend = b then 1 else 0 := by
  unfold State.trailing State.outcomes
  by_cases hb : backend = b
  · simp [hb]
  · simp [hb]

theorem trailing_succeeded (s : State) (tasks : List Task) {backend b : Nat} (hb : backend ≠ b) :
    ({ s with tasks := tasks, probes := (backend, true) :: s.probes } : State).trailing b =
      s.trailing b := by
  unfold State.trailing State.outcomes
  simp [hb]

theorem three_of_trailing (h : 3 ≤ s.trailing backend) :
    (s.outcomes backend).take 3 = [false, false, false] := by
  unfold State.trailing at h
  obtain ⟨rest, hsplit⟩ : ∃ rest, (s.outcomes backend).takeWhile (fun ok => !ok) ++ rest =
      s.outcomes backend := ⟨_, List.takeWhile_append_dropWhile⟩
  have hfailed : ∀ ok ∈ (s.outcomes backend).takeWhile fun ok => !ok, ok = false := by
    intro ok hok
    simpa using List.mem_takeWhile_imp hok
  generalize (s.outcomes backend).takeWhile (fun ok => !ok) = row at h hsplit hfailed
  rw [← hsplit, List.take_append_of_le_length h]
  change _ = List.replicate 3 false
  rw [List.eq_replicate_iff]
  constructor
  · rw [List.length_take, min_eq_left h]
  · intro ok hok
    exact hfailed ok (List.mem_of_mem_take hok)

theorem counted_setTask (htasks : s'.tasks = s.tasks.set i task)
    (hset : ∀ b, task.failures b ≤ s'.trailing b)
    (hothers : ∀ (j : Nat) (other : Task), j ≠ i → s.tasks[j]? = some other →
      ∀ b, other.failures b ≤ s'.trailing b) : s'.Counted := by
  intro j other hother b
  rw [htasks, List.getElem?_set] at hother
  split at hother
  · split at hother
    · obtain rfl := Option.some.inj hother
      exact hset b
    · cases hother
  · rename_i hne
    exact hothers j other (Ne.symm hne) hother b

theorem counted_addBackend (h : s.Counted) (hstep : s.step .addBackend = some s') :
    s'.Counted := by
  obtain rfl := Option.some.inj hstep
  intro j other hother b
  rw [List.getElem?_append] at hother
  split at hother
  · exact h j other hother b
  · rw [List.getElem?_singleton] at hother
    split at hother
    · obtain rfl := Option.some.inj hother
      exact Nat.zero_le _
    · cases hother

theorem tick_cases (hstep : s.step (.tick i) = some s') : ∃ task phase,
    s.tasks[i]? = some task ∧ task.phase = .checking [] ∧
      (phase = .ended ∨ phase = .checking s.list) ∧
      s' = s.setTask i { task with phase := phase } := by
  obtain ⟨task, htask, hnext⟩ := Option.bind_eq_some_iff.mp hstep
  split at hnext
  · rename_i hphase
    obtain rfl := Option.some.inj hnext
    refine ⟨task, _, htask, hphase, ?_, rfl⟩
    split
    · exact .inl rfl
    · exact .inr rfl
  · cases hnext

theorem probe_cases (hstep : s.step (.probe i ok) = some s') : ∃ task backend queue,
    s.tasks[i]? = some task ∧ task.phase = .checking (backend :: queue) ∧
      s' = { s.setTask i { task with phase := .probed backend ok queue } with
        probes := (backend, ok) :: s.probes } := by
  obtain ⟨task, htask, hnext⟩ := Option.bind_eq_some_iff.mp hstep
  split at hnext
  · rename_i backend queue hphase
    obtain rfl := Option.some.inj hnext
    exact ⟨task, backend, queue, htask, hphase, rfl⟩
  · cases hnext

theorem record_cases (hstep : s.step (.record i) = some s') : ∃ task backend ok queue,
    s.tasks[i]? = some task ∧ task.phase = .probed backend ok queue ∧
      s' = { s.setTask i
          ⟨Function.update task.failCounts backend (task.counted backend ok), .checking queue⟩ with
        healthy := Function.update s.healthy backend
          (task.flag backend ok (s.healthy backend)) } := by
  obtain ⟨task, htask, hnext⟩ := Option.bind_eq_some_iff.mp hstep
  split at hnext
  · rename_i backend ok queue hphase
    obtain rfl := Option.some.inj hnext
    exact ⟨task, backend, ok, queue, htask, hphase, rfl⟩
  · cases hnext

theorem counted_tick (h : s.Counted) (hstep : s.step (.tick i) = some s') : s'.Counted := by
  obtain ⟨task, phase, htask, hphase, hnext, rfl⟩ := tick_cases hstep
  refine counted_setTask rfl ?_ ?_
  · intro b
    have hold := h i task htask b
    rw [Task.failures, hphase] at hold
    rcases hnext with rfl | rfl
    · exact hold
    · exact hold
  · intro j other _ hother
    exact h j other hother

theorem failures_of_undisturbed {queue : List Nat} (h : undisturbed s (.probe i true) = true)
    (htask : s.tasks[i]? = some task) (hphase : task.phase = .checking (backend :: queue))
    {j : Nat} {other : Task} (hne : j ≠ i) (hother : s.tasks[j]? = some other) :
    other.failures backend = 0 := by
  have hnext : s.nextProbe i = some backend := by
    rw [State.nextProbe, htask, Option.bind_some, hphase]
  rw [undisturbed, hnext, Option.all_some, List.all_eq_true] at h
  have hchecked := h (other, j) (List.mk_mem_zipIdx_iff_getElem?.mpr hother)
  simpa [hne] using hchecked

theorem counted_probe (h : s.Counted) (hguard : undisturbed s (.probe i ok) = true)
    (hstep : s.step (.probe i ok) = some s') : s'.Counted := by
  obtain ⟨task, backend, queue, htask, hphase, rfl⟩ := probe_cases hstep
  have hold := h i task htask
  simp only [Task.failures, hphase] at hold
  cases ok with
  | false =>
      refine counted_setTask rfl ?_ ?_
      · intro b
        rw [State.setTask, trailing_failed]
        have hb := hold b
        simp only [Task.failures, Task.counted]
        split
        · rename_i hsame
          subst hsame
          have hadd : (task.failCounts backend + 1).toNat ≤
              (task.failCounts backend).toNat + 1 := by
            rw [UInt32.toNat_add]
            exact Nat.mod_le _ _
          exact hadd.trans (Nat.succ_le_succ hb)
        · exact hb
      · intro j other _ hother b
        rw [State.setTask, trailing_failed]
        exact (h j other hother b).trans (Nat.le_add_right _ _)
  | true =>
      refine counted_setTask rfl ?_ ?_
      · intro b
        simp only [Task.failures, Task.counted]
        split
        · exact Nat.zero_le _
        · rename_i hne
          rw [State.setTask, trailing_succeeded _ _ hne]
          exact hold b
      · intro j other hne hother b
        by_cases hb : backend = b
        · rw [← hb, failures_of_undisturbed hguard htask hphase hne hother]
          exact Nat.zero_le _
        · rw [State.setTask, trailing_succeeded _ _ hb]
          exact h j other hother b

theorem counted_record (h : s.Counted) (hstep : s.step (.record i) = some s') : s'.Counted := by
  obtain ⟨task, backend, ok, queue, htask, hphase, rfl⟩ := record_cases hstep
  refine counted_setTask rfl ?_ ?_
  · intro b
    have hold := h i task htask b
    simp only [Task.failures, hphase] at hold
    simp only [Task.failures, Function.update_apply]
    by_cases hb : backend = b
    · rw [if_pos hb] at hold
      rw [if_pos hb.symm]
      exact hold
    · rw [if_neg hb] at hold
      rw [if_neg (Ne.symm hb)]
      exact hold
  · intro j other _ hother
    exact h j other hother

theorem counted_step (h : s.Counted) (hguard : undisturbed s move = true)
    (hstep : s.step move = some s') : s'.Counted := by
  cases move with
  | addBackend => exact counted_addBackend h hstep
  | removeBackend backend =>
      obtain ⟨-, hnext⟩ := Option.ite_none_right_eq_some.mp hstep
      obtain rfl := Option.some.inj hnext
      exact h
  | forceHealthCheck backend ok =>
      obtain ⟨-, hnext⟩ := Option.ite_none_right_eq_some.mp hstep
      obtain rfl := Option.some.inj hnext
      exact h
  | tick i => exact counted_tick h hstep
  | probe i ok => exact counted_probe h hguard hstep
  | record i => exact counted_record h hstep

theorem not_premature (h : s.Counted) : ¬ Premature s move := by
  rintro ⟨i, b, s', rfl, hstep, hup, hdown, hprobes⟩
  obtain ⟨task, backend, ok, queue, htask, hphase, rfl⟩ := record_cases hstep
  change Function.update s.healthy backend (task.flag backend ok (s.healthy backend)) b =
    false at hdown
  by_cases hb : b = backend
  · subst hb
    rw [Function.update_self, Task.flag] at hdown
    split at hdown
    · cases hdown
    · split at hdown
      · rename_i hthree
        have hcount := h i task htask b
        rw [Task.failures, hphase] at hcount
        simp only [if_true] at hcount
        exact hprobes (three_of_trailing ((UInt32.le_iff_toNat_le.mp hthree).trans hcount))
      · rw [hup] at hdown
        cases hdown
  · rw [Function.update_of_ne hb, hup] at hdown
    cases hdown

end Counting

/-- In every run in which no probe succeeds while another task has failures of its backend,
a flag goes away only after three failures in a row. -/
theorem unhealthy_after_three {moves : List Move} {s : State}
    (hrun : Run State.step (fun s move => undisturbed s move = true) .start moves s) :
    ¬ Occurred State.step Premature .start moves := by
  induction hrun with
  | nil => exact not_occurred_nil
  | snoc hinit hguard hlast ih =>
      rw [hinit.occurred_snoc_iff]
      have hcounted := hinit.invariant counted_start fun t a u ht hg hs => counted_step ht hg hs
      rintro (hbefore | hnow)
      · exact ih hbefore
      · exact not_premature hcounted hnow

/-- Two tasks check one backend, as the second backend is removed again. -/
def twoTasks : List Move := [.addBackend, .addBackend, .removeBackend 1]

def checkRound (i : Nat) (ok : Bool) : List Move := [.tick i, .probe i ok, .record i]

/-- A success of the second task, then three failures of the first. -/
def threeInARow : List Move :=
  twoTasks ++ checkRound 1 true ++ checkRound 0 false ++ checkRound 0 false ++ checkRound 0 false

theorem unhealthy_after_three_in_a_row :
    ∃ s, Run State.step (fun s move => undisturbed s move = true) .start threeInARow s ∧
      s.healthy 0 = false ∧ ¬ Occurred State.step Premature .start threeInARow := by
  have hexec : (execGuarded State.step (fun s move => undisturbed s move = true) .start
      threeInARow).map (fun s => s.healthy 0) = some false := by decide
  obtain ⟨s, hrun, hdown⟩ := exists_run hexec
  exact ⟨s, hrun, hdown, unhealthy_after_three hrun⟩

/-- The second task succeeds between the second and the third failure of the first. -/
def interleaved : List Move :=
  twoTasks ++ checkRound 0 false ++ checkRound 0 false ++ checkRound 1 true ++
    [.tick 0, .probe 0 false]

theorem unhealthy_despite_success :
    ¬ ∀ (moves : List Move) (s : State), FreeRun State.step .start moves s →
      ¬ Occurred State.step Premature .start moves := by
  intro h
  have hexec : (exec State.step .start interleaved).map (fun s =>
      (s.healthy 0, s.outcomes 0, (s.step (.record 0)).map fun s' => s'.healthy 0)) =
        some (true, [false, true, false, false], some false) := by decide
  obtain ⟨s, hrun, hfacts⟩ := exists_freeRun hexec
  simp only [Prod.mk.injEq] at hfacts
  obtain ⟨hup, hprobes, hnext⟩ := hfacts
  obtain ⟨s', hstep, hdown⟩ := Option.map_eq_some_iff.mp hnext
  have hpremature : Premature s (.record 0) := by
    refine ⟨0, 0, s', rfl, hstep, hup, hdown, ?_⟩
    rw [hprobes]
    decide
  exact h _ s' (.snoc hrun trivial hstep) (hrun.occurred_last hpremature)

end HealthChecks

end Seamless.Relay
