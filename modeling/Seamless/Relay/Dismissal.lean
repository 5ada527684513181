import Seamless.Relay.Progress
import Seamless.Relay.Registration
import Seamless.Relay.Visibility

/-!
A call that is told to leave leaves. The expiry task, SIGTERM and the admin requests tell it
through the disconnect channel of its entry; what they tell is never lost, even when the
call has not come to its loop yet, and from there its tunnel can always be taken down.
-/

namespace Seamless.Relay

open Seamless.Common
open Seamless.Library
open Seamless.Library.NetAddr
open Seamless.Library.ByteStream
open Seamless.Library.TransitionSystem

/-- The endpoint of a call that has inserted its entry and not left its loop. -/
def Pc.registered : Pc → Option Endpoint
  | .announcing (.http sub) => some (.http sub)
  | .looping endpoint => some endpoint
  | _ => none

/-- The endpoint of a call that is taking its tunnel down. -/
def Pc.leaving : Pc → Option Endpoint
  | .tcpShutdown port | .tcpRemovePort port => some (.tcp port)
  | .cleaning endpoint => some endpoint
  | _ => none

/-- Where a call can stand that has been told to leave. It has no entry any more when it has
returned with `Ok`. The only other way to return is that its `Registered` reply could not be
written. -/
inductive Pc.Parts (sh : Shared) (i : MuxId) (endpoint : Endpoint) : Pc → Prop
  | told {pc : Pc} (hpc : pc.registered = some endpoint)
      (hready : disconnectReady sh i endpoint = true) : Parts sh i endpoint pc
  | leaving {pc : Pc} (hpc : pc.leaving = some endpoint) : Parts sh i endpoint pc
  | left (hgone : sh.holder endpoint.key ≠ some i) : Parts sh i endpoint (.returned (.ok ()))
  | failed (e : CodecError) : Parts sh i endpoint (.returned (.error (.announce endpoint e)))

/-- The labels that tell the call behind `endpoint` to leave. -/
inductive Dismisses (cfg : Config) (s : System) (i : MuxId) (endpoint : Endpoint) : Label → Prop
  | expired {now : Int} {e : TunnelEntry} (hk : s.shared.tunnels.lookup endpoint.key = some e)
      (hold : Shared.isExpired cfg now e = true) : Dismisses cfg s i endpoint (.sweep now)
  | terminated : Dismisses cfg s i endpoint .shutdown
  | asked {n : Nat} {muxes : List MuxId}
      (hget : s.admins[n]? = some (.disconnecting (i :: muxes))) :
      Dismisses cfg s i endpoint (.adminStep n)

section Ready

variable {cfg : Config} {s s' : System} {label : Label} {i : MuxId} {endpoint : Endpoint}

theorem disconnectReady_iff {sh : Shared} :
    disconnectReady sh i endpoint = true ↔
      i ∈ sh.signalled ∨ sh.holder endpoint.key ≠ some i := by
  simp [disconnectReady]

theorem Dismisses.ready (hdismisses : Dismisses cfg s i endpoint label)
    (hstep : s.step cfg label = some s') : disconnectReady s'.shared i endpoint = true := by
  rw [disconnectReady_iff]
  cases hdismisses with
  | @expired now e hk hold =>
      obtain rfl := System.sweep_cases hstep
      have hgone : (s.shared.sweep cfg now).tunnels.lookup endpoint.key = none := by
        rw [Shared.lookup_sweep, hk, Option.filter_some_neg (by simp [hold])]
      refine .inr ?_
      change (s.shared.sweep cfg now).holder endpoint.key ≠ some i
      rw [Shared.holder_eq_none.mpr hgone]
      exact nofun
  | terminated =>
      obtain rfl := System.shutdown_cases hstep
      exact .inr nofun
  | asked hget =>
      simp only [System.step, System.adminStep, hget] at hstep
      cases hstep
      exact .inl List.mem_cons_self

theorem signalled_step (hi : i ∈ s.shared.signalled) (hstep : s.step cfg label = some s') :
    i ∈ s'.shared.signalled := by
  by_cases haside : label.Aside
  · obtain ⟨lists, admins, rfl⟩ := System.step_of_aside haside hstep
    exact hi
  cases label with
  | handler j input =>
      obtain ⟨h, h', sh', hget, hhandler, rfl⟩ := System.handler_cases hstep
      rw [hhandler.signalled]
      exact hi
  | sweep now =>
      obtain rfl := System.sweep_cases hstep
      exact mem_signalled_foldl _ _ hi
  | shutdown =>
      obtain rfl := System.shutdown_cases hstep
      exact List.mem_append_right _ hi
  | adminStep n =>
      simp only [System.step, System.adminStep] at hstep
      split at hstep
      · cases hstep
        exact List.mem_cons_of_mem _ hi
      · cases hstep
        exact hi
      · cases hstep
        exact hi
      · cases hstep
  | connect client =>
      cases hstep
      exact hi
  | removeCustomDomain tunnelId =>
      cases hstep
      exact hi
  | lookupDomain host =>
      simp only [System.step] at hstep
      split at hstep <;> cases hstep <;> exact hi
  | routeDomain n =>
      obtain ⟨lookups, routed, rfl⟩ := System.routeDomain_frame (System.routeDomain_cases hstep)
      exact hi
  | _ => exact absurd trivial haside

theorem holder_of_other {key : String} (hwf : s.WellFormed)
    (hlabel : ∀ input, label ≠ .handler i input) (hstep : s.step cfg label = some s')
    (hholder : s'.shared.holder key = some i) : s.shared.holder key = some i := by
  obtain ⟨e, hk, hmux⟩ := Shared.holder_eq_some.mp hholder
  refine Shared.holder_eq_some.mpr ⟨e, ?_, hmux⟩
  cases System.step_cases hstep with
  | connected client => exact hk
  | @handled j input h h' sh' hget hhandler =>
      have hji : i ≠ j := by
        rintro rfl
        exact hlabel input rfl
      exact hhandler.lookup_of_ne (hwf j h hget) hk (by rwa [hmux])
  | evicted _ hevict => exact hevict.lookup hk
  | quiet hquiet => exact hquiet.tunnels ▸ hk

theorem disconnectReady_of_other (hwf : s.WellFormed)
    (hlabel : ∀ input, label ≠ .handler i input) (hstep : s.step cfg label = some s')
    (hready : disconnectReady s.shared i endpoint = true) :
    disconnectReady s'.shared i endpoint = true := by
  rw [disconnectReady_iff] at hready ⊢
  rcases hready with hsignalled | hgone
  · exact .inl (signalled_step hsignalled hstep)
  · exact .inr fun hholder => hgone (holder_of_other hwf hlabel hstep hholder)

end Ready

theorem Pc.registered_cases {pc : Pc} {endpoint : Endpoint} (h : pc.registered = some endpoint) :
    (∃ sub, pc = .announcing (.http sub) ∧ endpoint = .http sub) ∨ pc = .looping endpoint := by
  unfold Pc.registered at h
  split at h
  · cases h
    exact .inl ⟨_, rfl, rfl⟩
  · cases h
    exact .inr rfl
  · cases h

@[simp] theorem Endpoint.leaving_exit (endpoint : Endpoint) :
    endpoint.exit.leaving = some endpoint := by
  cases endpoint <;> rfl

theorem Pc.Parts.ready {pc : Pc} {sh : Shared} {i : MuxId} {endpoint : Endpoint}
    (hparts : pc.Parts sh i endpoint) (hpc : pc.registered = some endpoint) :
    disconnectReady sh i endpoint = true := by
  cases hparts with
  | told _ hready => exact hready
  | leaving hleaving =>
      rcases Pc.registered_cases hpc with ⟨sub, rfl, rfl⟩ | rfl <;> cases hleaving
  | left => cases hpc
  | failed => cases hpc

section Handler

variable {cfg : Config} {i : MuxId} {sh sh' : Shared} {h h' : Handler} {input : Input}
  {endpoint : Endpoint}

theorem Handler.registered_step (hpc : h.pc.registered = some endpoint)
    (hready : disconnectReady sh i endpoint = true)
    (hstep : h.step cfg i sh input = some (h', sh')) :
    sh' = sh ∧ h'.pc.Parts sh i endpoint := by
  rcases Pc.registered_cases hpc with ⟨sub, hat, rfl⟩ | hat
  · cases input with
    | wrote fault =>
        simp only [Handler.step, hat] at hstep
        split at hstep
        · cases hstep
          exact ⟨rfl, .told rfl hready⟩
        · cases hstep
          exact ⟨rfl, .failed _⟩
    | _ => simp [Handler.step, hat] at hstep
  · cases input with
    | disconnected =>
        simp only [Handler.step, hat, hready, if_true] at hstep
        cases hstep
        exact ⟨rfl, .leaving endpoint.leaving_exit⟩
    | ticked fault =>
        simp only [Handler.step, hat] at hstep
        rcases hwrite : h.write fault .ping with ⟨e | _, w⟩
        · rw [hwrite] at hstep
          cases hstep
          exact ⟨rfl, .leaving endpoint.leaving_exit⟩
        · have hw : w.pc = h.pc := by rw [← Handler.write_pc h fault .ping, hwrite]
          rw [hwrite] at hstep
          cases hstep
          rw [hw]
          exact ⟨rfl, .told hpc hready⟩
    | drained n =>
        simp only [Handler.step, hat] at hstep
        split at hstep
        · cases hstep
          exact ⟨rfl, .told hpc hready⟩
        · cases hstep
          exact ⟨rfl, .leaving endpoint.leaving_exit⟩
    | _ => simp [Handler.step, hat] at hstep

theorem Handler.leaving_step (hpc : h.pc.leaving = some endpoint)
    (hstep : h.step cfg i sh input = some (h', sh')) : h'.pc.Parts sh' i endpoint := by
  unfold Pc.leaving at hpc
  split at hpc
  · rename_i hat
    cases input with
    | proceed =>
        simp only [Handler.step, hat] at hstep
        cases hstep
        exact .leaving hpc
    | _ => simp [Handler.step, hat] at hstep
  · rename_i hat
    cases input with
    | proceed =>
        simp only [Handler.step, hat] at hstep
        cases hstep
        exact .leaving hpc
    | _ => simp [Handler.step, hat] at hstep
  · rename_i e hat
    obtain rfl : e = endpoint := Option.some.inj hpc
    cases input with
    | proceed =>
        simp only [Handler.step, hat] at hstep
        split at hstep
        · cases hstep
        · cases hstep
          refine .left ?_
          rw [Shared.holder_removeTunnel_self]
          exact Option.some_ne_none i |>.symm
    | _ => simp [Handler.step, hat] at hstep
  · cases hpc

theorem Handler.parts_step (hparts : h.pc.Parts sh i endpoint)
    (hstep : h.step cfg i sh input = some (h', sh')) : h'.pc.Parts sh' i endpoint := by
  generalize hat : h.pc = pc at hparts
  cases hparts with
  | told hpc hready =>
      obtain ⟨rfl, hnext⟩ := Handler.registered_step (hat ▸ hpc) hready hstep
      exact hnext
  | leaving hpc => exact Handler.leaving_step (hat ▸ hpc) hstep
  | left => cases input <;> simp [Handler.step, hat] at hstep
  | failed => cases input <;> simp [Handler.step, hat] at hstep

end Handler

namespace System

/-- Call `i` has been told to leave, or has left. -/
def Dismissed (i : MuxId) (endpoint : Endpoint) (s : System) : Prop :=
  ∃ h, s.handlers[i]? = some h ∧ h.pc.Parts s.shared i endpoint

section Dismissed

variable {cfg : Config} {s s' : System} {label : Label} {i : MuxId} {h : Handler}
  {endpoint : Endpoint}

theorem get_of_other (hget : s.handlers[i]? = some h) (hlabel : ∀ input, label ≠ .handler i input)
    (hstep : s.step cfg label = some s') : s'.handlers[i]? = some h := by
  obtain ⟨g, hg, rfl⟩ := At.step (Q := fun g => g = h) ⟨h, hget, rfl⟩ hstep
    fun _ input _ _ _ heq _ _ => absurd heq (hlabel input)
  exact hg

theorem parts_of_other {pc : Pc} (hwf : s.WellFormed) (hlabel : ∀ input, label ≠ .handler i input)
    (hstep : s.step cfg label = some s') (hparts : pc.Parts s.shared i endpoint) :
    pc.Parts s'.shared i endpoint := by
  cases hparts with
  | told hpc hready => exact .told hpc (disconnectReady_of_other hwf hlabel hstep hready)
  | leaving hpc => exact .leaving hpc
  | left hgone => exact .left fun hholder => hgone (holder_of_other hwf hlabel hstep hholder)
  | failed e => exact .failed e

theorem Dismissed.step (hs : s.Dismissed i endpoint) (hwf : s.WellFormed)
    (hstep : s.step cfg label = some s') : s'.Dismissed i endpoint := by
  obtain ⟨h, hget, hparts⟩ := hs
  by_cases hown : ∃ input, label = .handler i input
  · obtain ⟨input, rfl⟩ := hown
    obtain ⟨g, h', sh', hget', hmoved, rfl⟩ := System.handler_step hstep
    obtain rfl : h = g := Option.some.inj (hget.symm.trans hget')
    have hlt : i < s.handlers.length := (List.getElem?_eq_some_iff.mp hget).1
    exact ⟨h', List.getElem?_set_self hlt, Handler.parts_step hparts hmoved⟩
  · have hother : ∀ input, label ≠ .handler i input := fun input heq => hown ⟨input, heq⟩
    exact ⟨h, get_of_other hget hother hstep, parts_of_other hwf hother hstep hparts⟩

end Dismissed

/-- Call `i` can return with `Ok` by at most `n` steps of its own, and then the maps are so. -/
def Leaves (cfg : Config) (n : Nat) (i : MuxId) (client : IpAddr) (Q : Shared → Prop)
    (s : System) : Prop :=
  ∃ labels u g, exec (System.step cfg) s labels = some u ∧ labels.length ≤ n ∧
    (∀ label ∈ labels, label.ownStep i = true) ∧ u.handlers[i]? = some g ∧ g.client = client ∧
    g.pc = .returned (.ok ()) ∧ Q u.shared

section Leaving

variable {cfg : Config} {s s' : System} {n : Nat} {i : MuxId} {h h' : Handler} {sh' : Shared}
  {input : Input} {client : IpAddr} {endpoint : Endpoint} {port : UInt16} {Q : Shared → Prop}

theorem Leaves.mono {m : Nat} (hs : s.Leaves cfg n i client Q) (hle : n ≤ m) :
    s.Leaves cfg m i client Q := by
  obtain ⟨labels, u, g, hexec, hlength, hfacts⟩ := hs
  exact ⟨labels, u, g, hexec, hlength.trans hle, hfacts⟩

theorem step_of_handler (hget : s.handlers[i]? = some h)
    (hmoved : h.step cfg i s.shared input = some (h', sh')) :
    s.step cfg (.handler i input) =
      some { s with shared := sh', handlers := s.handlers.set i h' } := by
  simp only [System.step, hget, hmoved, Option.map_some]

theorem Leaves.cons (hget : s.handlers[i]? = some h) (hturn : input.isTurn = false)
    (hmoved : h.step cfg i s.shared input = some (h', sh'))
    (hrest : ∀ t : System, t.shared = sh' → t.handlers[i]? = some h' →
      t.Leaves cfg n i client Q) : s.Leaves cfg (n + 1) i client Q := by
  have hlt : i < s.handlers.length := (List.getElem?_eq_some_iff.mp hget).1
  obtain ⟨labels, u, g, hexec, hlength, howned, hfacts⟩ :=
    hrest { s with shared := sh', handlers := s.handlers.set i h' } rfl
      (List.getElem?_set_self hlt)
  refine ⟨.handler i input :: labels, u, g, ?_, ?_, ?_, hfacts⟩
  · rw [exec, step_of_handler hget hmoved]
    exact hexec
  · rw [List.length_cons]
    omega
  · intro label hlabel
    rcases List.mem_cons.mp hlabel with rfl | hlabel
    · simp [Label.ownStep, hturn]
    · exact howned label hlabel

end Leaving

end System

end Seamless.Relay
