import Mathlib.Data.List.DropRight
import Mathlib.Data.List.Perm.Basic
import Seamless.Library.TransitionSystem

/-!
The ring of recent audit events. One task emits; `emit` pushes at once when it finds the
lock free, and otherwise spawns a task that pushes later. The lock is that of tokio: who
asks for it waits in a queue, and whoever releases it hands it to the head of the queue.
A spawned task asks for the lock at its first poll, and the scheduler decides when that is.
-/

namespace Seamless.Relay

open Seamless.Library.TransitionSystem

variable {ε : Type}

def ringCapacity : Nat := 1024

namespace AuditRing

def push (buf : List ε) (event : ε) : List ε :=
  (if ringCapacity ≤ buf.length then buf.tail else buf) ++ [event]

/-- `ts` is the field of that name, where it is there and an `i64`. -/
def query (ts : ε → Option Int) (buf : List ε) (since : Option Int) (limit : Nat) : List ε :=
  (buf.filter fun event =>
    match since with
    | some since => since ≤ (ts event).getD 0
    | none => true).take limit

/-- A user of the lock and what it does while it holds it. -/
inductive Client (ε : Type) where
  | push (event : ε)
  | query (since : Option Int) (limit : Nat)

namespace Client

def run (buf : List ε) : Client ε → List ε
  | push event => AuditRing.push buf event
  | query _ _ => buf

def pushes : Client ε → List ε
  | push event => [event]
  | query _ _ => []

end Client

/-- `spawned` are the events of the tasks that were not polled yet. `emitted` and `pushed`
record the events in the order in which they were emitted and reached the buffer. -/
structure State (ε : Type) where
  buf : List ε
  holder : Option (Client ε)
  queue : List (Client ε)
  spawned : List ε
  emitted : List ε
  pushed : List ε

inductive Move (ε : Type) where
  | emit (event : ε)
  | poll (i : Nat)
  | query (since : Option Int) (limit : Nat)
  | finish

namespace State

def start : State ε := ⟨[], none, [], [], [], []⟩

def lock (s : State ε) (client : Client ε) : State ε :=
  match s.holder with
  | none => { s with holder := some client }
  | some _ => { s with queue := s.queue ++ [client] }

def unlock (s : State ε) : State ε := { s with holder := s.queue.head?, queue := s.queue.tail }

def emit (s : State ε) (event : ε) : State ε :=
  match s.holder with
  | none =>
      { s with
        buf := push s.buf event
        emitted := s.emitted ++ [event]
        pushed := s.pushed ++ [event] }
  | some _ => { s with spawned := s.spawned ++ [event], emitted := s.emitted ++ [event] }

def step (s : State ε) : Move ε → Option (State ε)
  | .emit event => some (s.emit event)
  | .poll i =>
      s.spawned[i]?.map fun event =>
        ({ s with spawned := s.spawned.eraseIdx i } : State ε).lock (.push event)
  | .query since limit => some (s.lock (.query since limit))
  | .finish =>
      s.holder.map fun client =>
        ({ s with buf := client.run s.buf, pushed := s.pushed ++ client.pushes } : State ε).unlock

/-- Who has asked for the lock and not released it, in the order in which it is handed on. -/
def clients (s : State ε) : List (Client ε) := s.holder.toList ++ s.queue

/-- The events that were emitted and have not reached the buffer. -/
def inFlight (s : State ε) : List ε := s.clients.flatMap Client.pushes ++ s.spawned

/-- Once every spawned push has run, the buffer holds the last events in their order and
queries are answered from those. -/
def Faithful (ts : ε → Option Int) (s : State ε) : Prop :=
  s.inFlight = [] →
    s.buf = s.emitted.rtake ringCapacity ∧
    ∀ since limit, query ts s.buf since limit =
      ((s.emitted.rtake ringCapacity).filter fun event =>
        since.all (· ≤ (ts event).getD 0)).take limit

end State

/-- No event is pushed at once while an earlier one waits for its task to be polled, and
the tasks are polled in the order in which they were spawned. -/
def Move.keepsOrder (s : State ε) : Move ε → Bool
  | .emit _ => s.holder.isSome || s.spawned.isEmpty
  | .poll i => i == 0
  | .query _ _ => true
  | .finish => true

theorem evict_rtake (n : Nat) (events : List ε) (event : ε) :
    (if n + 1 ≤ (events.rtake (n + 1)).length then (events.rtake (n + 1)).tail
      else events.rtake (n + 1)) ++ [event] = (events ++ [event]).rtake (n + 1) := by
  rw [List.rtake_concat_succ, List.append_cancel_right_eq]
  simp only [List.rtake, List.length_drop, List.tail_drop]
  split
  · congr 1
    omega
  · rw [show events.length - (n + 1) = 0 by omega, show events.length - n = 0 by omega]

theorem push_rtake (events : List ε) (event : ε) :
    push (events.rtake ringCapacity) event = (events ++ [event]).rtake ringCapacity :=
  evict_rtake 1023 events event

theorem query_eq (ts : ε → Option Int) (buf : List ε) (since : Option Int) (limit : Nat) :
    query ts buf since limit =
      (buf.filter fun event => since.all (· ≤ (ts event).getD 0)).take limit := by
  cases since <;> rfl

namespace State

variable {s s' : State ε} {move : Move ε}

/-- What is known of every reachable state: the buffer is the window of what was pushed, in
the order of the pushes, and every event is pushed once. -/
structure Accounted (s : State ε) : Prop where
  window : s.buf = s.pushed.rtake ringCapacity
  fair : s.holder = none → s.queue = []
  once : s.emitted.Perm (s.pushed ++ s.inFlight)

theorem accounted_start : (start : State ε).Accounted where
  window := (List.rtake_nil _).symm
  fair := fun _ => rfl
  once := .nil

theorem clients_lock (h : s.holder = none → s.queue = []) (client : Client ε) :
    (s.lock client).clients = s.clients ++ [client] := by
  unfold lock clients
  cases hholder : s.holder with
  | none => simp [h hholder]
  | some _ => simp

theorem holder_lock (s : State ε) (client : Client ε) : (s.lock client).holder ≠ none := by
  unfold lock
  split <;> simp_all

theorem inFlight_lock (h : s.holder = none → s.queue = []) (client : Client ε) :
    (s.lock client).inFlight = s.clients.flatMap Client.pushes ++ (client.pushes ++ s.spawned) := by
  have hspawned : (s.lock client).spawned = s.spawned := by
    unfold lock
    split <;> rfl
  rw [inFlight, clients_lock h, hspawned, List.flatMap_append, List.append_assoc]
  simp

theorem clients_unlock (s : State ε) : s.unlock.clients = s.queue := by
  unfold unlock clients
  cases s.queue <;> rfl

theorem unlock_fair (s : State ε) : s.unlock.holder = none → s.unlock.queue = [] := by
  unfold unlock
  cases s.queue <;> simp

theorem inFlight_of_holder {client : Client ε} (h : s.holder = some client) (buf pushed : List ε) :
    s.inFlight = client.pushes ++
      ({ s with buf := buf, pushed := pushed } : State ε).unlock.inFlight := by
  rw [inFlight, inFlight, clients_unlock, clients, h]
  simp [unlock]

theorem inFlight_emit_of_free (h : s.holder = none) (event : ε) :
    (s.emit event).inFlight = s.inFlight ∧ (s.emit event).pushed = s.pushed ++ [event] := by
  simp [emit, inFlight, clients, h]

theorem inFlight_emit_of_held {client : Client ε} (h : s.holder = some client) (event : ε) :
    (s.emit event).inFlight = s.inFlight ++ [event] ∧ (s.emit event).pushed = s.pushed := by
  simp [emit, inFlight, clients, h]

theorem emitted_emit (s : State ε) (event : ε) :
    (s.emit event).emitted = s.emitted ++ [event] := by
  unfold emit
  split <;> rfl

theorem inFlight_poll (h : s.holder = none → s.queue = []) (i : Nat) (event : ε) :
    (({ s with spawned := s.spawned.eraseIdx i } : State ε).lock (.push event)).inFlight =
      s.clients.flatMap Client.pushes ++ event :: s.spawned.eraseIdx i :=
  inFlight_lock (s := { s with spawned := s.spawned.eraseIdx i }) h (.push event)

theorem lock_record (s : State ε) (client : Client ε) :
    (s.lock client).emitted = s.emitted ∧ (s.lock client).pushed = s.pushed ∧
      (s.lock client).buf = s.buf := by
  unfold lock
  split <;> simp

theorem Accounted.emit (h : s.Accounted) (event : ε) : (s.emit event).Accounted := by
  cases hholder : s.holder with
  | none =>
      obtain ⟨hflight, hpushed⟩ := inFlight_emit_of_free hholder event
      refine ⟨?_, ?_, ?_⟩
      · simp [State.emit, hholder, h.window, push_rtake]
      · simpa [State.emit, hholder] using h.fair hholder
      · rw [emitted_emit, hflight, hpushed, List.append_assoc]
        refine (h.once.append_right _).trans ?_
        rw [List.append_assoc]
        exact List.Perm.append_left _ List.perm_append_comm
  | some client =>
      obtain ⟨hflight, hpushed⟩ := inFlight_emit_of_held hholder event
      refine ⟨?_, ?_, ?_⟩
      · simp [State.emit, hholder, h.window]
      · simp [State.emit, hholder]
      · rw [emitted_emit, hflight, hpushed, ← List.append_assoc]
        exact h.once.append_right _

theorem Accounted.poll {i : Nat} {event : ε} (h : s.Accounted)
    (hevent : s.spawned[i]? = some event) :
    (({ s with spawned := s.spawned.eraseIdx i } : State ε).lock (.push event)).Accounted := by
  obtain ⟨hemitted, hpushed, hbuf⟩ :=
    lock_record { s with spawned := s.spawned.eraseIdx i } (.push event)
  obtain ⟨hi, rfl⟩ := List.getElem?_eq_some_iff.mp hevent
  refine ⟨?_, fun hnone => absurd hnone (holder_lock _ _), ?_⟩
  · rw [hbuf, hpushed]
    exact h.window
  · rw [hemitted, hpushed, inFlight_poll h.fair]
    refine h.once.trans (List.Perm.append_left _ (List.Perm.append_left _ ?_))
    exact (List.getElem_cons_eraseIdx_perm hi).symm

theorem Accounted.query (h : s.Accounted) (since : Option Int) (limit : Nat) :
    (s.lock (.query since limit)).Accounted := by
  obtain ⟨hemitted, hpushed, hbuf⟩ := lock_record s (.query since limit)
  refine ⟨?_, fun hnone => absurd hnone (holder_lock _ _), ?_⟩
  · rw [hbuf, hpushed]
    exact h.window
  · rw [hemitted, hpushed, inFlight_lock h.fair]
    exact h.once

theorem Accounted.finish {client : Client ε} (h : s.Accounted) (hholder : s.holder = some client) :
    ({ s with buf := client.run s.buf, pushed := s.pushed ++ client.pushes } :
      State ε).unlock.Accounted := by
  refine ⟨?_, unlock_fair _, ?_⟩
  · cases client with
    | push event =>
        change push s.buf event = (s.pushed ++ [event]).rtake ringCapacity
        rw [h.window, push_rtake]
    | query since limit =>
        change s.buf = (s.pushed ++ []).rtake ringCapacity
        rw [List.append_nil, h.window]
  · change s.emitted.Perm (s.pushed ++ client.pushes ++ _)
    rw [List.append_assoc, ← inFlight_of_holder hholder]
    exact h.once

theorem accounted_step (h : s.Accounted) (hstep : s.step move = some s') : s'.Accounted := by
  cases move with
  | emit event =>
      obtain rfl := Option.some.inj hstep
      exact h.emit event
  | poll i =>
      obtain ⟨event, hevent, rfl⟩ := Option.map_eq_some_iff.mp hstep
      exact h.poll hevent
  | query since limit =>
      obtain rfl := Option.some.inj hstep
      exact h.query since limit
  | finish =>
      obtain ⟨client, hholder, rfl⟩ := Option.map_eq_some_iff.mp hstep
      exact h.finish hholder

theorem ordered_step (h : s.Accounted) (hordered : s.emitted = s.pushed ++ s.inFlight)
    (hkeeps : move.keepsOrder s = true) (hstep : s.step move = some s') :
    s'.emitted = s'.pushed ++ s'.inFlight := by
  cases move with
  | emit event =>
      obtain rfl := Option.some.inj hstep
      rw [emitted_emit, hordered]
      cases hholder : s.holder with
      | none =>
          obtain ⟨hflight, hpushed⟩ := inFlight_emit_of_free hholder event
          have hnone : s.inFlight = [] := by
            rw [Move.keepsOrder, hholder, Option.isSome_none, Bool.false_or,
              List.isEmpty_iff] at hkeeps
            rw [inFlight, clients, hholder, h.fair hholder, hkeeps]
            rfl
          rw [hflight, hpushed, hnone, List.append_nil, List.append_nil]
      | some client =>
          obtain ⟨hflight, hpushed⟩ := inFlight_emit_of_held hholder event
          rw [hflight, hpushed, List.append_assoc]
  | poll i =>
      obtain ⟨event, hevent, rfl⟩ := Option.map_eq_some_iff.mp hstep
      obtain ⟨hemitted, hpushed, -⟩ :=
        lock_record { s with spawned := s.spawned.eraseIdx i } (.push event)
      obtain rfl : i = 0 := by simpa [Move.keepsOrder] using hkeeps
      obtain ⟨hi, rfl⟩ := List.getElem?_eq_some_iff.mp hevent
      rw [hemitted, hpushed, inFlight_poll h.fair, List.eraseIdx_zero]
      rw [List.getElem_zero, List.cons_head_tail]
      exact hordered
  | query since limit =>
      obtain rfl := Option.some.inj hstep
      obtain ⟨hemitted, hpushed, -⟩ := lock_record s (.query since limit)
      rw [hemitted, hpushed, inFlight_lock h.fair]
      exact hordered
  | finish =>
      obtain ⟨client, hholder, rfl⟩ := Option.map_eq_some_iff.mp hstep
      change s.emitted = s.pushed ++ client.pushes ++ _
      rw [List.append_assoc, ← inFlight_of_holder hholder]
      exact hordered

theorem faithful_of_ordered {s : State ε} (h : s.Accounted)
    (hordered : s.emitted = s.pushed ++ s.inFlight) (ts : ε → Option Int) : s.Faithful ts := by
  intro hidle
  have hbuf : s.buf = s.emitted.rtake ringCapacity := by
    rw [h.window, hordered, hidle, List.append_nil]
  refine ⟨hbuf, ?_⟩
  intro since limit
  rw [query_eq, hbuf]

end State

variable {moves : List (Move ε)} {s : State ε}

/-- Along every run in which no event overtakes another, the ring is the window of the
events that were emitted. -/
theorem faithful_of_keepsOrder (ts : ε → Option Int)
    (hrun : Run State.step (fun s move => move.keepsOrder s = true) .start moves s) :
    HoldsAlong State.step (State.Faithful ts) .start moves := by
  refine hrun.holdsAlong ?_
  intro moves s hrun
  have hboth : s.Accounted ∧ s.emitted = s.pushed ++ s.inFlight := by
    refine hrun.invariant (I := fun s => s.Accounted ∧ s.emitted = s.pushed ++ s.inFlight)
      ⟨State.accounted_start, rfl⟩ ?_
    rintro s move s' ⟨haccounted, hordered⟩ hkeeps hstep
    exact ⟨State.accounted_step haccounted hstep,
      State.ordered_step haccounted hordered hkeeps hstep⟩
  exact State.faithful_of_ordered hboth.1 hboth.2 ts

/-- Two events are emitted during a query and one after it. -/
def duringQuery : List (Move Int) :=
  [.query none 100, .emit 1, .emit 2, .finish, .poll 0, .poll 0, .finish, .finish, .emit 3]

theorem faithful_after_query :
    ∃ s : State Int, Run State.step (fun s move => move.keepsOrder s = true) .start duringQuery s ∧
      s.buf = [1, 2, 3] := by
  have hexec : (execGuarded State.step (fun s move => move.keepsOrder s = true) .start
      duringQuery).map (fun s => (s.inFlight, s.emitted)) = some ([], [1, 2, 3]) := by decide
  obtain ⟨s, hrun, hfacts⟩ := exists_run hexec
  obtain ⟨hidle, hemitted⟩ := Prod.mk.inj hfacts
  have hfaithful := faithful_of_keepsOrder some hrun _ List.prefix_rfl s hrun.exec
  refine ⟨s, hrun, (hfaithful hidle).1.trans ?_⟩
  rw [hemitted]
  decide

/-- An event is emitted while a query holds the lock, and the next one after the query and
before the task of the first is polled. -/
def overtaking : List (Move Int) :=
  [.query none 100, .emit 1, .finish, .emit 2, .poll 0, .finish]

theorem ring_out_of_order :
    ¬ ∀ (moves : List (Move Int)) (s : State Int), FreeRun State.step .start moves s →
      s.Faithful some := by
  intro h
  have hexec : (exec State.step .start overtaking).map (fun s => (s.inFlight, s.buf, s.emitted)) =
      some ([], [2, 1], [1, 2]) := by decide
  obtain ⟨s, hrun, hfacts⟩ := exists_freeRun hexec
  simp only [Prod.mk.injEq] at hfacts
  obtain ⟨hidle, hbuf, hemitted⟩ := hfacts
  have hwindow := (h _ s hrun hidle).1
  rw [hbuf, hemitted] at hwindow
  exact absurd hwindow (by decide)

end AuditRing

end Seamless.Relay
