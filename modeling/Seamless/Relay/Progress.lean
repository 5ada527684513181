import Seamless.Library.Progress
import Seamless.Relay.System

/-!
No call of `handle_client` is stuck. The turns of its control loop apart it takes a
bounded number of steps, there is always a next one that leads towards its return, and
the only one it can have to wait for is that of the call that holds the `tunnels` mutex.
-/

namespace Seamless.Relay

open Seamless.Common
open Seamless.Library
open Seamless.Library.NetAddr
open Seamless.Library.ByteStream
open Seamless.Library.TransitionSystem

/-- A bound on the steps that a call still takes, the turns of its loop apart. -/
def Pc.remaining : Pc → Nat
  | .start => 114
  | .awaitRegister => 113
  | .rateLimiting _ => 112
  | .perIpCheck _ => 111
  | .globalCheck _ => 110
  | .serve _ => 109
  | .tcpPick tries => 2 * tries + 8
  | .tcpProbe _ tries => 2 * tries + 9
  | .tcpBind _ => 8
  | .tcpInsertPort _ => 7
  | .httpInsert _ => 7
  | .announcing _ => 6
  | .tcpInsertEntry _ => 5
  | .looping _ => 4
  | .tcpShutdown _ => 3
  | .tcpRemovePort _ => 2
  | .cleaning _ => 1
  | .refusing _ => 1
  | .httpRefusing _ => 1
  | .returned _ => 0

/-- A turn of the control loop that does not end it, unless the ping fails. -/
def Input.isTurn : Input → Bool
  | .ticked _ | .drained (some (_ + 1)) => true
  | _ => false

theorem remaining_afterRegister (cfg : Config) (lists : Lists) (read : RegisterRead) :
    (afterRegister cfg lists read).remaining < 113 := by
  rcases afterRegister_cases cfg lists read with ⟨e, heq, -⟩ | ⟨reply, heq, -⟩ | ⟨kind, heq⟩
  · rw [heq]
    simp only [Pc.remaining]
    decide
  · rw [heq]
    simp only [Pc.remaining]
    decide
  · rw [heq]
    simp only [Pc.remaining]
    decide

theorem remaining_exit (endpoint : Endpoint) : endpoint.exit.remaining < 4 := by
  cases endpoint <;> simp only [Endpoint.exit, Pc.remaining] <;> decide

theorem remaining_announced (endpoint : Endpoint) : endpoint.announced.remaining < 6 := by
  cases endpoint <;> simp only [Endpoint.announced, Pc.remaining] <;> decide

section Step

variable {cfg : Config} {i : MuxId} {sh sh' : Shared} {h h' : Handler} {input : Input}

theorem remaining_afterNaming {subdomain : Option String} {random : String} {unixNow : Int}
    {now : Nat} {pc : Pc}
    (hnaming : afterNaming cfg i sh h subdomain random unixNow now = some pc) :
    pc.remaining < 109 := by
  unfold afterNaming at hnaming
  split at hnaming
  · split at hnaming
    · cases hnaming
      simp only [Pc.remaining]
      decide
    · cases hnaming
      simp only [Pc.remaining]
      decide
  · split at hnaming
    · cases hnaming
      simp only [Pc.remaining]
      decide
    · cases hnaming

theorem Handler.remaining_lt (hturn : input.isTurn = false)
    (hstep : h.step cfg i sh input = some (h', sh')) : h'.pc.remaining < h.pc.remaining := by
  cases input with
  | proceed =>
      simp only [Handler.step, afterPerIpCheck, afterGlobalCheck] at hstep
      repeat' split at hstep
      all_goals first
        | (cases hstep; done)
        | (cases hstep; rw [‹h.pc = _›, Handler.goto_pc]; simp only [Pc.remaining]; omega)
  | received read =>
      simp only [Handler.step] at hstep
      split at hstep
      · rename_i hpc
        cases hstep
        rw [hpc]
        exact remaining_afterRegister cfg sh.lists read
      · cases hstep
  | instant now =>
      simp only [Handler.step] at hstep
      split at hstep
      · rename_i hpc
        cases hstep
        rw [hpc, Handler.goto_pc]
        split <;> simp only [Pc.remaining] <;> decide
      · cases hstep
  | named random unixNow now =>
      simp only [Handler.step] at hstep
      split at hstep
      · rename_i hpc
        obtain ⟨pc, hnaming, heq⟩ := Option.map_eq_some_iff.mp hstep
        cases heq
        rw [hpc]
        exact remaining_afterNaming hnaming
      · cases hstep
  | picked port =>
      simp only [Handler.step] at hstep
      split at hstep
      · rename_i tries hpc
        split at hstep
        · cases hstep
          rw [hpc, Handler.goto_pc]
          split <;> simp only [Pc.remaining] <;> omega
        · cases hstep
      · cases hstep
  | bound ok =>
      simp only [Handler.step] at hstep
      repeat' split at hstep
      all_goals first
        | (cases hstep; done)
        | (cases hstep; rw [‹h.pc = _›, Handler.goto_pc]; simp only [Pc.remaining]; omega)
  | wrote fault =>
      simp only [Handler.step] at hstep
      split at hstep
      · rename_i hpc
        cases hstep
        rw [hpc, Handler.goto_pc]
        simp only [Pc.remaining]
        decide
      · rename_i hpc
        cases hstep
        rw [hpc, Handler.goto_pc]
        simp only [Pc.remaining]
        decide
      · rename_i endpoint hpc
        rw [hpc]
        split at hstep
        · cases hstep
          exact remaining_announced endpoint
        · cases hstep
          rw [Handler.goto_pc]
          simp only [Pc.remaining]
          decide
      · cases hstep
  | clocks unixNow now =>
      simp only [Handler.step] at hstep
      split at hstep
      · rename_i hpc
        split at hstep
        · cases hstep
        · cases hstep
          rw [hpc, Handler.goto_pc]
          simp only [Pc.remaining]
          decide
      · cases hstep
  | disconnected =>
      simp only [Handler.step] at hstep
      split at hstep
      · rename_i endpoint hpc
        split at hstep
        · cases hstep
          rw [hpc]
          exact remaining_exit endpoint
        · cases hstep
      · cases hstep
  | ticked fault => cases hturn
  | drained n =>
      simp only [Handler.step] at hstep
      split at hstep
      · rename_i endpoint hpc
        split at hstep
        · cases hturn
        · cases hstep
          rw [hpc]
          exact remaining_exit endpoint
      · cases hstep

theorem Handler.remaining_le (hstep : h.step cfg i sh input = some (h', sh')) :
    h'.pc.remaining ≤ h.pc.remaining := by
  cases hturn : input.isTurn with
  | false => exact Nat.le_of_lt (Handler.remaining_lt hturn hstep)
  | true =>
      cases input with
      | ticked fault =>
          simp only [Handler.step] at hstep
          split at hstep
          · rename_i endpoint hpc
            rcases hwrite : h.write fault .ping with ⟨e | _, w⟩
            · rw [hwrite] at hstep
              cases hstep
              rw [hpc]
              exact Nat.le_of_lt (remaining_exit endpoint)
            · have hw : w.pc = h.pc := by rw [← Handler.write_pc h fault .ping, hwrite]
              rw [hwrite] at hstep
              cases hstep
              rw [hw]
          · cases hstep
      | drained n =>
          simp only [Handler.step] at hstep
          split at hstep
          · rename_i endpoint hpc
            split at hstep
            · cases hstep
              exact Nat.le_refl _
            · cases hstep
              rw [hpc]
              exact Nat.le_of_lt (remaining_exit endpoint)
          · cases hstep
      | _ => cases hturn

end Step

/-- Where a call has to have the `tunnels` mutex for its next step. -/
def Pc.takesLock (cfg : Config) : Pc → Bool
  | .perIpCheck _ => cfg.maxTunnelsPerIp != 0
  | .globalCheck _ => cfg.maxTunnels != 0
  | .httpInsert _ | .tcpInsertEntry _ | .cleaning _ => true
  | _ => false

theorem exists_randomSubdomain (length : Nat) : ∃ s, isRandomSubdomain length s = true := by
  refine ⟨String.ofList (List.replicate length 'a'), ?_⟩
  simp only [isRandomSubdomain, String.toList_ofList, List.length_replicate, beq_self_eq_true,
    Bool.true_and, List.all_eq_true]
  intro c hc
  rw [(List.mem_replicate.mp hc).2]
  decide

theorem exists_afterNaming (cfg : Config) (i : MuxId) (sh : Shared) (h : Handler)
    (subdomain : Option String) :
    ∃ random pc, afterNaming cfg i sh h subdomain random 0 0 = some pc := by
  cases subdomain with
  | some requested =>
      refine ⟨"", ?_⟩
      simp only [afterNaming]
      split
      · exact ⟨_, rfl⟩
      · exact ⟨_, rfl⟩
  | none =>
      obtain ⟨random, hrandom⟩ := exists_randomSubdomain cfg.subdomainLength
      refine ⟨random, ?_⟩
      simp only [afterNaming, hrandom, if_true]
      exact ⟨_, rfl⟩

section Enabled

variable {cfg : Config} {i : MuxId} {sh : Shared} {h : Handler}

theorem Handler.exists_step (hreturned : h.pc.isReturned = false)
    (hlock : h.pc.takesLock cfg = true → sh.lock = none) :
    ∃ input next, input.isTurn = false ∧ h.step cfg i sh input = some next := by
  cases hpc : h.pc with
  | start =>
      refine ⟨.proceed, ?_⟩
      simp only [Handler.step, hpc]
      split
      · split <;> exact ⟨_, rfl, rfl⟩
      · exact ⟨_, rfl, rfl⟩
  | awaitRegister =>
      refine ⟨.received .dropped, ?_⟩
      simp only [Handler.step, hpc]
      exact ⟨_, rfl, rfl⟩
  | rateLimiting kind =>
      refine ⟨.instant 0, ?_⟩
      simp only [Handler.step, hpc]
      exact ⟨_, rfl, rfl⟩
  | perIpCheck kind =>
      refine ⟨.proceed, ?_⟩
      simp only [Handler.step, hpc]
      split
      · exact ⟨_, rfl, rfl⟩
      · rename_i hlimited
        have hfree : sh.lock = none := hlock (by simpa [hpc, Pc.takesLock] using hlimited)
        simp only [hfree, Option.isSome_none, Bool.false_eq_true, if_false]
        exact ⟨_, rfl, rfl⟩
  | globalCheck kind =>
      refine ⟨.proceed, ?_⟩
      simp only [Handler.step, hpc]
      split
      · exact ⟨_, rfl, rfl⟩
      · rename_i hlimited
        have hfree : sh.lock = none := hlock (by simpa [hpc, Pc.takesLock] using hlimited)
        simp only [hfree, Option.isSome_none, Bool.false_eq_true, if_false]
        exact ⟨_, rfl, rfl⟩
  | serve kind =>
      cases kind with
      | http subdomain =>
          obtain ⟨random, pc, hnaming⟩ := exists_afterNaming cfg i sh h subdomain
          refine ⟨.named random 0 0, ?_⟩
          simp only [Handler.step, hpc, hnaming, Option.map_some]
          exact ⟨_, rfl, rfl⟩
      | tcp port =>
          refine ⟨.proceed, ?_⟩
          simp only [Handler.step, hpc]
          split <;> exact ⟨_, rfl, rfl⟩
  | refusing reply =>
      refine ⟨.wrote none, ?_⟩
      simp only [Handler.step, hpc]
      exact ⟨_, rfl, rfl⟩
  | httpInsert entry =>
      have hfree : sh.lock = none := hlock (by simp [hpc, Pc.takesLock])
      refine ⟨.proceed, ?_⟩
      simp only [Handler.step, hpc, hfree, Option.isSome_none, Bool.false_eq_true, if_false]
      split <;> exact ⟨_, rfl, rfl⟩
  | httpRefusing reply =>
      refine ⟨.wrote none, ?_⟩
      simp only [Handler.step, hpc]
      exact ⟨_, rfl, rfl⟩
  | tcpPick tries =>
      cases tries with
      | zero =>
          refine ⟨.proceed, ?_⟩
          simp only [Handler.step, hpc]
          exact ⟨_, rfl, rfl⟩
      | succ tries =>
          refine ⟨.picked 10000, ?_⟩
          have hrange : 10000 ≤ (10000 : UInt16).toNat ∧ (10000 : UInt16).toNat < 60000 := by decide
          simp only [Handler.step, hpc, if_pos hrange]
          exact ⟨_, rfl, rfl⟩
  | tcpProbe port tries =>
      refine ⟨.bound false, ?_⟩
      simp only [Handler.step, hpc]
      exact ⟨_, rfl, rfl⟩
  | tcpBind port =>
      refine ⟨.bound false, ?_⟩
      simp only [Handler.step, hpc]
      exact ⟨_, rfl, rfl⟩
  | tcpInsertPort port =>
      refine ⟨.proceed, ?_⟩
      simp only [Handler.step, hpc]
      exact ⟨_, rfl, rfl⟩
  | announcing endpoint =>
      refine ⟨.wrote none, ?_⟩
      simp only [Handler.step, hpc]
      split <;> exact ⟨_, rfl, rfl⟩
  | tcpInsertEntry port =>
      have hfree : sh.lock = none := hlock (by simp [hpc, Pc.takesLock])
      refine ⟨.clocks 0 0, ?_⟩
      simp only [Handler.step, hpc, hfree, Option.isSome_none, Bool.false_eq_true, if_false]
      exact ⟨_, rfl, rfl⟩
  | looping endpoint =>
      refine ⟨.drained none, ?_⟩
      simp only [Handler.step, hpc]
      exact ⟨_, rfl, rfl⟩
  | tcpShutdown port =>
      refine ⟨.proceed, ?_⟩
      simp only [Handler.step, hpc]
      exact ⟨_, rfl, rfl⟩
  | tcpRemovePort port =>
      refine ⟨.proceed, ?_⟩
      simp only [Handler.step, hpc]
      exact ⟨_, rfl, rfl⟩
  | cleaning endpoint =>
      have hfree : sh.lock = none := hlock (by simp [hpc, Pc.takesLock])
      refine ⟨.proceed, ?_⟩
      simp only [Handler.step, hpc, hfree, Option.isSome_none, Bool.false_eq_true, if_false]
      exact ⟨_, rfl, rfl⟩
  | returned result =>
      rw [hpc] at hreturned
      cases hreturned

end Enabled

/-- The mutex is held across an await only by a call that writes its 409 reply. -/
def LockHeld (s : System) : Prop :=
  ∀ j, s.shared.lock = some j → ∃ h reply, s.handlers[j]? = some h ∧ h.pc = .httpRefusing reply

inductive LockStep (i : MuxId) (sh : Shared) (h h' : Handler) (sh' : Shared) : Prop
  | kept (hlock : sh'.lock = sh.lock) (hpc : ∀ reply, h.pc ≠ .httpRefusing reply)
  | taken {reply : ControlFrame} (hfree : sh.lock = none) (hlock : sh'.lock = some i)
      (hpc' : h'.pc = .httpRefusing reply)
  | released {reply : ControlFrame} (hpc : h.pc = .httpRefusing reply) (hlock : sh'.lock = none)

theorem Pc.Early.ne_httpRefusing {pc : Pc} (h : pc.Early) (reply : ControlFrame) :
    pc ≠ .httpRefusing reply := by
  rintro rfl
  exact h

theorem Pc.Searching.ne_httpRefusing {pc : Pc} (h : pc.Searching) (reply : ControlFrame) :
    pc ≠ .httpRefusing reply := by
  rintro rfl
  exact h

theorem HandlerStep.lock {cfg : Config} {i : MuxId} {sh sh' : Shared} {h h' : Handler}
    {input : Input} (hstep : HandlerStep cfg i sh h input h' sh') :
    LockStep i sh h h' sh' := by
  cases hstep with
  | giveUp hpc =>
      refine .kept rfl fun reply => ?_
      rcases hpc with hearly | hsearching
      · exact hearly.ne_httpRefusing reply
      · exact hsearching.ne_httpRefusing reply
  | advance _ hpc => exact .kept rfl hpc.ne_httpRefusing
  | refuse _ hpc =>
      refine .kept rfl fun reply => ?_
      rcases hpc with hearly | ⟨sub, hpc⟩
      · exact hearly.ne_httpRefusing reply
      · simp [hpc]
  | search hpc => exact .kept rfl hpc.ne_httpRefusing
  | bound hpc =>
      refine .kept rfl fun reply hrefusing => ?_
      rw [hrefusing] at hpc
      cases hpc
  | taken _ hlock => exact .taken hlock rfl rfl
  | takenReply hpc => exact .released hpc rfl
  | @announceFailed _ endpoint _ hpc =>
      refine .kept ?_ fun reply => by simp [hpc]
      cases endpoint <;> rfl
  | pass hpc => exact .kept rfl fun reply => by simp [hpc]
  | named hpc => exact .kept rfl fun reply => by simp [hpc]
  | inserted hpc => exact .kept rfl fun reply => by simp [hpc]
  | announced hpc => exact .kept rfl fun reply => by simp [hpc]
  | pinged hpc => exact .kept rfl fun reply => by simp [hpc]
  | _ =>
      rename_i hpc
      exact .kept rfl fun reply => by simp [hpc]

theorem LockHeld.step {cfg : Config} {s s' : System} {label : Label} (hs : LockHeld s)
    (hstep : s.step cfg label = some s') : LockHeld s' := by
  cases System.step_cases hstep with
  | connected client =>
      intro j hj
      obtain ⟨h, reply, hget, hpc⟩ := hs j hj
      have hlt : j < s.handlers.length := (List.getElem?_eq_some_iff.mp hget).1
      exact ⟨h, reply, by simpa [List.getElem?_append_left hlt] using hget, hpc⟩
  | @handled i input h h' sh' hget hhandler =>
      have hlt : i < s.handlers.length := (List.getElem?_eq_some_iff.mp hget).1
      intro j hj
      cases hhandler.lock with
      | kept hlock hpc =>
          obtain ⟨g, reply, hget', hpc'⟩ := hs j (hlock ▸ hj)
          have hji : j ≠ i := by
            rintro rfl
            obtain rfl : h = g := Option.some.inj (hget.symm.trans hget')
            exact hpc reply hpc'
          exact ⟨g, reply, by simpa [List.getElem?_set_ne (Ne.symm hji)] using hget', hpc'⟩
      | taken _ hlock hpc' =>
          obtain rfl : i = j := Option.some.inj (hlock.symm.trans hj)
          exact ⟨h', _, List.getElem?_set_self hlt, hpc'⟩
      | released _ hlock =>
          have hnone : some j = none := hj.symm.trans hlock
          cases hnone
  | evicted _ hevict =>
      intro j hj
      exact hs j (hevict.lock ▸ hj)
  | quiet hquiet =>
      intro j hj
      rw [hquiet.handlers]
      exact hs j (hquiet.lock ▸ hj)

theorem lockHeld_reached {cfg : Config} {lists : Lists} {labels : List Label} {s : System}
    (hrun : FreeRun (System.step cfg) (System.initial lists) labels s) : LockHeld s := by
  refine hrun.invariant ?_ fun _ _ _ ht _ hstep => ht.step hstep
  intro j hj
  cases hj

/-- A step that call `i` takes other than by a turn of its loop. -/
def Label.ownStep (i : MuxId) : Label → Bool
  | .handler j input => j == i && !input.isTurn
  | _ => false

namespace System

/-- The measure of call `i`, which is that of a fresh one until it is there. -/
def remaining (i : MuxId) (s : System) : Nat :=
  match s.handlers[i]? with
  | some h => h.pc.remaining
  | none => 114

section Remaining

variable {cfg : Config} {s s' : System} {label : Label} {i : MuxId} {h : Handler}

theorem remaining_of_get (hget : s.handlers[i]? = some h) : s.remaining i = h.pc.remaining := by
  simp only [remaining, hget]

theorem remaining_of_handlers (hhandlers : s'.handlers[i]? = s.handlers[i]?) :
    s'.remaining i = s.remaining i := by
  simp only [remaining, hhandlers]

theorem remaining_step (hstep : s.step cfg label = some s') : s'.remaining i ≤ s.remaining i := by
  by_cases hhandler : ∃ j input, label = .handler j input
  · obtain ⟨j, input, rfl⟩ := hhandler
    obtain ⟨h, h', sh', hget, hown, rfl⟩ := System.handler_step hstep
    have hlt : j < s.handlers.length := (List.getElem?_eq_some_iff.mp hget).1
    by_cases hji : j = i
    · subst hji
      rw [remaining_of_get hget, remaining_of_get (List.getElem?_set_self hlt)]
      exact Handler.remaining_le hown
    · exact Nat.le_of_eq (remaining_of_handlers (List.getElem?_set_ne hji))
  · cases System.step_cases hstep with
    | connected client =>
        rcases Nat.lt_or_ge i s.handlers.length with hlt | hge
        · exact Nat.le_of_eq (remaining_of_handlers (List.getElem?_append_left hlt))
        · simp only [remaining]
          rw [List.getElem?_append_right hge, List.getElem?_singleton, List.getElem?_eq_none hge]
          split
          · rename_i h hget
            split at hget
            · cases hget
              exact Nat.le_refl _
            · cases hget
          · exact Nat.le_refl _
    | handled => exact absurd ⟨_, _, rfl⟩ hhandler
    | evicted => exact Nat.le_refl _
    | quiet hquiet => exact Nat.le_of_eq (remaining_of_handlers (by rw [hquiet.handlers]))

theorem remaining_ownStep (hstep : s.step cfg label = some s')
    (hown : label.ownStep i = true) : s'.remaining i < s.remaining i := by
  cases label with
  | handler j input =>
      simp only [Label.ownStep, Bool.and_eq_true, beq_iff_eq, Bool.not_eq_true'] at hown
      obtain ⟨rfl, hturn⟩ := hown
      obtain ⟨h, h', sh', hget, hmoved, rfl⟩ := System.handler_step hstep
      have hlt : j < s.handlers.length := (List.getElem?_eq_some_iff.mp hget).1
      rw [remaining_of_get hget, remaining_of_get (List.getElem?_set_self hlt)]
      exact Handler.remaining_lt hturn hmoved
  | _ => cases hown

end Remaining

section Schedule

variable {cfg : Config} {s s' : System} {i : MuxId} {h : Handler}

theorem exists_ownStep (hget : s.handlers[i]? = some h) (hreturned : h.pc.isReturned = false)
    (hlock : h.pc.takesLock cfg = true → s.shared.lock = none) :
    ∃ input s', input.isTurn = false ∧ s.step cfg (.handler i input) = some s' := by
  obtain ⟨input, next, hturn, hstep⟩ := Handler.exists_step (i := i) hreturned hlock
  refine ⟨input, { s with shared := next.2, handlers := s.handlers.set i next.1 }, hturn, ?_⟩
  simp only [System.step, hget, hstep, Option.map_some]

theorem releases (cfg : Config) {j : MuxId} (hs : LockHeld s) (hlock : s.shared.lock = some j)
    (fault : Fault) :
    ∃ h reply, s.handlers[j]? = some h ∧ h.pc = .httpRefusing reply ∧
      ∃ s', s.step cfg (.handler j (.wrote fault)) = some s' ∧ s'.shared.lock = none := by
  obtain ⟨h, reply, hget, hpc⟩ := hs j hlock
  refine ⟨h, reply, hget, hpc, ?_⟩
  simp only [System.step, hget, Handler.step, hpc, Option.map_some]
  exact ⟨_, rfl, rfl⟩

/-- Only call `i` itself can have the mutex. -/
def Unhindered (i : MuxId) (s : System) : Prop :=
  LockHeld s ∧ (∀ j, s.shared.lock = some j → j = i) ∧ ∃ h, s.handlers[i]? = some h

theorem Unhindered.step (hs : s.Unhindered i) {input : Input}
    (hstep : s.step cfg (.handler i input) = some s') : s'.Unhindered i := by
  obtain ⟨hheld, howner, -⟩ := hs
  obtain ⟨h, h', sh', hget, hhandler, heq⟩ := System.handler_cases hstep
  have hlt : i < s.handlers.length := (List.getElem?_eq_some_iff.mp hget).1
  refine ⟨hheld.step hstep, ?_, ?_⟩
  · subst heq
    intro j hj
    cases hhandler.lock with
    | kept hlock => exact howner j (hlock ▸ hj)
    | taken _ hlock => exact (Option.some.inj (hlock.symm.trans hj)).symm
    | released _ hlock =>
        have hnone : some j = none := hj.symm.trans hlock
        cases hnone
  · rw [heq]
    exact ⟨h', List.getElem?_set_self hlt⟩

theorem Unhindered.returns (cfg : Config) (hs : s.Unhindered i) :
    ∃ labels t, exec (System.step cfg) s labels = some t ∧ labels.length ≤ s.remaining i ∧
      (∀ label ∈ labels, label.ownStep i = true) ∧ t.Unhindered i ∧
      t.At (fun h => h.pc.isReturned = true) i := by
  refine exists_exec_of_progress (I := Unhindered i) ?_ hs
  rintro s ⟨hheld, howner, h, hget⟩ hgoal
  have hreturned : h.pc.isReturned = false := by
    by_contra hdone
    exact hgoal ⟨h, hget, by simpa using hdone⟩
  have hlock : h.pc.takesLock cfg = true → s.shared.lock = none := by
    intro htakes
    cases hlock : s.shared.lock with
    | none => rfl
    | some j =>
        obtain rfl := howner j hlock
        obtain ⟨g, reply, hget', hpc⟩ := hheld j hlock
        obtain rfl : h = g := Option.some.inj (hget.symm.trans hget')
        rw [hpc] at htakes
        cases htakes
  obtain ⟨input, s', hturn, hstep⟩ := exists_ownStep hget hreturned hlock
  have hown : Label.ownStep i (.handler i input) = true := by simp [Label.ownStep, hturn]
  exact ⟨.handler i input, s', hown, hstep, Unhindered.step ⟨hheld, howner, h, hget⟩ hstep,
    remaining_ownStep hstep hown⟩

theorem exists_unhindered (cfg : Config) (hs : LockHeld s) (hget : s.handlers[i]? = some h) :
    ∃ labels s', exec (System.step cfg) s labels = some s' ∧ labels.length ≤ 1 ∧
      (∀ label ∈ labels, ∃ j, s.shared.lock = some j ∧ label = .handler j (.wrote none)) ∧
      s'.Unhindered i ∧ s'.remaining i ≤ s.remaining i := by
  cases hlock : s.shared.lock with
  | none =>
      refine ⟨[], s, rfl, Nat.zero_le _, by simp, ⟨hs, ?_, h, hget⟩, Nat.le_refl _⟩
      intro j hj
      rw [hlock] at hj
      cases hj
  | some j =>
      obtain ⟨-, -, -, -, s', hstep, hfreed⟩ := releases cfg hs hlock none
      have hstays : ∃ g, s'.handlers[i]? = some g := by
        obtain ⟨g, hg, -⟩ := At.step (Q := fun _ => True) ⟨h, hget, trivial⟩ hstep
          fun _ _ _ _ _ _ _ _ => trivial
        exact ⟨g, hg⟩
      refine ⟨[.handler j (.wrote none)], s', ?_, Nat.le_refl _, ?_, ⟨hs.step hstep, ?_, hstays⟩,
        remaining_step hstep⟩
      · rw [exec, hstep]
        rfl
      · intro label hlabel
        exact ⟨j, rfl, List.mem_singleton.mp hlabel⟩
      · intro k hk
        rw [hfreed] at hk
        cases hk

theorem returns (hs : LockHeld s) (hget : s.handlers[i]? = some h) :
    ∃ labels t g, exec (System.step cfg) s labels = some t ∧
      labels.length ≤ h.pc.remaining + 1 ∧
      (∀ label ∈ labels, label.ownStep i = true ∨
        ∃ j, s.shared.lock = some j ∧ label = .handler j (.wrote none)) ∧
      t.handlers[i]? = some g ∧ g.pc.isReturned = true := by
  obtain ⟨first, s', hfirst, hone, hreply, hfree, hcloser⟩ := exists_unhindered cfg hs hget
  obtain ⟨rest, t, hrest, hlength, howned, -, g, hg, hdone⟩ := hfree.returns cfg
  rw [remaining_of_get hget] at hcloser
  refine ⟨first ++ rest, t, g, ?_, ?_, ?_, hg, hdone⟩
  · rw [exec_append, hfirst]
    exact hrest
  · rw [List.length_append]
    omega
  · intro label hlabel
    rcases List.mem_append.mp hlabel with hfirst | hrest
    · exact .inr (hreply label hfirst)
    · exact .inl (howned label hrest)

end Schedule

end System

/-- No call of `handle_client` is ever stuck. In every run the steps that it takes, the
turns of its control loop apart, are at most 114; until it has returned it can go on, unless
it waits for the `tunnels` mutex, and then the call that has the mutex is writing its 409
reply and gives it back whatever becomes of that; and from there it can return. -/
theorem relay_never_stuck (cfg : Config) (lists : Lists) (labels : List Label) (s : System)
    (i : MuxId) (h : Handler)
    (hrun : FreeRun (System.step cfg) (System.initial lists) labels s)
    (hget : s.handlers[i]? = some h) :
    labels.countP (Label.ownStep i) + h.pc.remaining ≤ 114 ∧
      (h.pc.isReturned = false →
        (∃ input s', input.isTurn = false ∧ s.step cfg (.handler i input) = some s') ∨
        (h.pc.takesLock cfg = true ∧ ∃ j, s.shared.lock = some j ∧ ∀ fault,
          ∃ s', s.step cfg (.handler j (.wrote fault)) = some s' ∧ s'.shared.lock = none)) ∧
      ∃ schedule t g, exec (System.step cfg) s schedule = some t ∧
        schedule.length ≤ h.pc.remaining + 1 ∧
        (∀ label ∈ schedule, label.ownStep i = true ∨
          ∃ j, s.shared.lock = some j ∧ label = .handler j (.wrote none)) ∧
        t.handlers[i]? = some g ∧ g.pc.isReturned = true := by
  have hheld := lockHeld_reached hrun
  refine ⟨?_, ?_, ?_⟩
  · have hbound := hrun.countP_add_le (μ := System.remaining i)
      (fun _ _ _ hstep => System.remaining_step hstep)
      (fun _ _ _ hstep hown => System.remaining_ownStep hstep hown)
    rw [System.remaining_of_get hget] at hbound
    exact hbound
  · intro hreturned
    by_cases hlock : h.pc.takesLock cfg = true → s.shared.lock = none
    · exact .inl (System.exists_ownStep hget hreturned hlock)
    · obtain ⟨htakes, hheld'⟩ := not_forall.mp hlock
      obtain ⟨j, hj⟩ := Option.ne_none_iff_exists'.mp hheld'
      refine .inr ⟨htakes, j, hj, fun fault => ?_⟩
      obtain ⟨-, -, -, -, hfreed⟩ := System.releases cfg hheld hj fault
      exact hfreed
  · exact System.returns hheld hget

/-- The second client is told that its name is taken and does not read it, while the third
is about to insert another name. -/
def jammed : List Label :=
  .connect documentationIp :: httpRegistration 0 "app" 0 ++
    [.handler 0 (.wrote none), .connect documentationIp, .connect documentationIp] ++
    admission 1 (.http (some "app")) ++ admission 2 (.http (some "web")) ++
    [.handler 2 (.named "" 0 0), .handler 1 (.named "" 0 0), .handler 1 .proceed]

theorem relay_never_stuck_jammed :
    ∃ s h, FreeRun (System.step (.unlimited "relay.test")) (System.initial .disabled) jammed s ∧
      s.handlers[2]? = some h ∧ s.shared.lock = some 1 ∧
      h.pc.takesLock (.unlimited "relay.test") = true ∧
      ∃ schedule t g, exec (System.step (.unlimited "relay.test")) s schedule = some t ∧
        schedule.length ≤ 8 ∧ t.handlers[2]? = some g ∧ g.pc.isReturned = true := by
  have hexec : (exec (System.step (.unlimited "relay.test")) (System.initial .disabled)
      jammed).map (fun s => (s.shared.lock, (s.handlers[2]?).map fun h =>
        (h.pc.takesLock (.unlimited "relay.test"), h.pc.remaining))) =
      some (some 1, some (true, 7)) := by
    decide +kernel
  obtain ⟨s, hrun, hfacts⟩ := exists_freeRun hexec
  obtain ⟨hlock, hthird⟩ := Prod.mk.inj hfacts
  obtain ⟨h, hget, hplace⟩ := Option.map_eq_some_iff.mp hthird
  obtain ⟨htakes, hremaining⟩ := Prod.mk.inj hplace
  obtain ⟨-, -, schedule, t, g, hschedule, hlength, -, hg, hdone⟩ :=
    relay_never_stuck _ _ _ s 2 h hrun hget
  rw [hremaining] at hlength
  exact ⟨s, h, hrun, hget, hlock, htakes, schedule, t, g, hschedule, hlength, hg, hdone⟩

end Seamless.Relay
