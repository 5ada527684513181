import Seamless.Relay.HttpOwnership

/-!
Is a tunnel in the map by the time its client hears of it? `serve_http` inserts
its entry and then writes `Registered`; `serve_tcp` does it the other way round,
and in between no admin request can see the tunnel.
-/

namespace Seamless.Relay

open Seamless.Common
open Seamless.Library
open Seamless.Library.TransitionSystem

/-- What a call has announced and still serves: from the `Registered` frame to the
end of its control loop. -/
def Pc.announcedEndpoint : Pc → Option Endpoint
  | .tcpInsertEntry port => some (.tcp port)
  | .looping endpoint => some endpoint
  | _ => none

/-- Every tunnel that is announced, served and not evicted has its entry in the
map. -/
def Visible (s : System) : Prop :=
  ∀ i h endpoint, s.handlers[i]? = some h → h.pc.announcedEndpoint = some endpoint →
    i ∉ s.shared.swept → s.shared.holder endpoint.key = some i

def Pc.announcingPort : Pc → Option UInt16
  | .announcing (.tcp port) => some port
  | _ => none

/-- The `Registered` frame of a TCP tunnel is not written. -/
def NoTcpAnnounce (cfg : Config) (s : System) : Label → Prop
  | .handler i (.wrote fault) => ∀ h ∈ s.handlers[i]?, ∀ port ∈ h.pc.announcingPort,
      (h.write fault (.registered (tcpUrl cfg port))).1.isOk = false
  | _ => True

instance (cfg : Config) : ∀ (s : System) (label : Label), Decidable (NoTcpAnnounce cfg s label)
  | s, .handler i (.wrote fault) =>
      -- Named, so that it is not decided by running through all ports.
      have (h : Handler) : Decidable (∀ port ∈ h.pc.announcingPort,
          (h.write fault (.registered (tcpUrl cfg port))).1.isOk = false) :=
        Option.decidableForallMem _
      inferInstanceAs (Decidable (∀ h ∈ s.handlers[i]?, ∀ port ∈ h.pc.announcingPort,
        (h.write fault (.registered (tcpUrl cfg port))).1.isOk = false))
  | _, .handler _ .proceed | _, .handler _ (.received _) | _, .handler _ (.instant _)
  | _, .handler _ (.named _ _ _) | _, .handler _ (.picked _) | _, .handler _ (.bound _)
  | _, .handler _ (.clocks _ _) | _, .handler _ .disconnected | _, .handler _ (.ticked _)
  | _, .handler _ (.drained _)
  | _, .connect _ | _, .sweep _ | _, .shutdown | _, .reloadAuth _ | _, .reloadBlocklist _
  | _, .reloadDenylist _ | _, .disconnectTunnel _ | _, .bulkDisconnect _
  | _, .setCustomDomain _ _ | _, .removeCustomDomain _ | _, .adminStep _ | _, .lookupDomain _
  | _, .routeDomain _ => .isTrue trivial

/-- No late cleanup, and no TCP tunnel is announced. -/
def HttpOnly (cfg : Config) (s : System) (label : Label) : Prop :=
  NoLateCleanup s label ∧ NoTcpAnnounce cfg s label

instance (cfg : Config) (s : System) (label : Label) : Decidable (HttpOnly cfg s label) :=
  inferInstanceAs (Decidable (_ ∧ _))

section Served

variable {cfg : Config} {s s' : System} {i : MuxId} {h h' : Handler} {sh sh' : Shared}
  {input : Input} {label : Label}

theorem Pc.Early.announcedEndpoint {pc : Pc} (hpc : pc.Early) : pc.announcedEndpoint = none := by
  cases pc <;> first | rfl | exact hpc.elim

theorem Pc.Searching.announcedEndpoint {pc : Pc} (hpc : pc.Searching) :
    pc.announcedEndpoint = none := by
  cases pc <;> first | rfl | exact hpc.elim

theorem Endpoint.announcedEndpoint_exit (e : Endpoint) : e.exit.announcedEndpoint = none := by
  cases e <;> rfl

theorem HandlerStep.tcp_announced (hstep : HandlerStep cfg i sh h input h' sh') {port : UInt16}
    (hpc' : h'.pc.announcedEndpoint = some (.tcp port)) :
    h.pc.announcedEndpoint = some (.tcp port) ∨
    ∃ fault, input = .wrote fault ∧ h.pc = .announcing (.tcp port) ∧
      (h.write fault (.registered (tcpUrl cfg port))).1 = .ok () := by
  cases hstep with
  | advance _ _ hearly =>
      rw [Handler.goto_pc, hearly.announcedEndpoint] at hpc'
      cases hpc'
  | search _ hsearching =>
      rw [Handler.goto_pc, hsearching.announcedEndpoint] at hpc'
      cases hpc'
  | @announced fault endpoint hpc hwrite =>
      cases endpoint with
      | http sub => cases hpc'
      | tcp port' =>
          cases hpc'
          exact .inr ⟨fault, rfl, hpc, hwrite⟩
  | entryInserted hpc =>
      cases hpc'
      left
      rw [hpc]
      rfl
  | pinged hpc => exact .inl hpc'
  | drained hpc => exact .inl hpc'
  | left hpc =>
      rw [Handler.goto_pc, Endpoint.announcedEndpoint_exit] at hpc'
      cases hpc'
  | pingFailed hpc =>
      rw [Handler.goto_pc, Endpoint.announcedEndpoint_exit] at hpc'
      cases hpc'
  | _ => cases hpc'

/-- Nobody serves a TCP tunnel. -/
def NoTcpServed (s : System) : Prop :=
  s.EachHandler fun _ h => ∀ port, h.pc.announcedEndpoint ≠ some (.tcp port)

theorem NoTcpServed.step (hs : NoTcpServed s) (hguard : NoTcpAnnounce cfg s label)
    (hstep : s.step cfg label = some s') : NoTcpServed s' := by
  intro j g hg port hpc'
  cases System.handler_origin hstep hg with
  | own hlabel hget hown =>
      subst hlabel
      rcases (Handler.step_cases hown).tcp_announced hpc' with hpc | ⟨fault, rfl, hpc, hwrite⟩
      · exact hs j _ hget port hpc
      · have hfailed := hguard _ hget port (by rw [hpc]; rfl)
        rw [hwrite] at hfailed
        cases hfailed
  | same _ hget => exact hs j g hget port hpc'
  | fresh _ hg =>
      rw [hg] at hpc'
      cases hpc'

theorem visible_of_httpOwnership (hown : HttpOwnership s) (htcp : NoTcpServed s) : Visible s := by
  intro i h endpoint hget hpc hswept
  cases endpoint with
  | tcp port => exact absurd hpc (htcp i h hget port)
  | http sub =>
      have hlooping : h.pc.servedName = some sub := by
        unfold Pc.announcedEndpoint at hpc
        split at hpc
        · cases hpc
        · rename_i hat
          cases hpc
          rw [hat]
          rfl
        · cases hpc
      obtain ⟨e, hk, hmux⟩ := hown.serving i h sub hget hlooping hswept
      exact Shared.holder_eq_some.mpr ⟨e, hk, hmux⟩

end Served

section Swept

variable {cfg : Config} {s s' : System} {i : MuxId} {label : Label}

theorem mem_swept_foldl (expired : List (Sigma fun _ : String => TunnelEntry)) (sh : Shared) :
    i ∈ (expired.foldl (fun sh e => sh.evict e.1 e.2) sh).swept ↔
      i ∈ sh.swept ∨ ∃ x ∈ expired, x.2.mux = i := by
  induction expired generalizing sh with
  | nil => simp
  | cons x expired ih =>
      rw [List.foldl_cons, ih]
      simp only [Shared.evict, List.mem_cons, exists_eq_or_imp]
      constructor
      · rintro ((rfl | hold) | hlater)
        · exact .inr (.inl rfl)
        · exact .inl hold
        · exact .inr (.inr hlater)
      · rintro (hold | rfl | hlater)
        · exact .inl (.inr hold)
        · exact .inl (.inl rfl)
        · exact .inr hlater

theorem mem_swept_step (hstep : s.step cfg label = some s') (hi : i ∈ s'.shared.swept) :
    i ∈ s.shared.swept ∨ ∃ k, s.shared.holder k = some i := by
  by_cases hevicting : label.Evicting
  · cases label with
    | sweep now =>
        obtain rfl := System.sweep_cases hstep
        rcases (mem_swept_foldl _ s.shared).mp hi with hold | ⟨x, hx, rfl⟩
        · exact .inl hold
        · have hentry := Shared.lookup_of_mem_entries (List.mem_of_mem_filter hx)
          exact .inr ⟨x.1, Shared.holder_eq_some.mpr ⟨x.2, hentry, rfl⟩⟩
    | shutdown =>
        obtain rfl := System.shutdown_cases hstep
        rcases List.mem_append.mp hi with hnew | hold
        · obtain ⟨e, he, rfl⟩ := List.mem_map.mp hnew
          obtain ⟨k, hk⟩ := KeyedTable.mem_values.mp he
          exact .inr ⟨k, Shared.holder_eq_some.mpr ⟨e, hk, rfl⟩⟩
        · exact .inl hold
    | _ => exact hevicting.elim
  · left
    cases System.step_cases hstep with
    | connected client => exact hi
    | handled _ hhandler =>
        rw [← hhandler.swept]
        exact hi
    | evicted hlabel => exact absurd hlabel hevicting
    | quiet hquiet =>
        rw [← hquiet.swept]
        exact hi

/-- A call that was evicted had its entry inserted. -/
def SweptHeld (s : System) : Prop :=
  ∀ i ∈ s.shared.swept, s.At (fun h => h.pc.heldKey.isSome ∨ h.pc.isReturned) i

theorem HandlerStep.held {sh sh' : Shared} {h h' : Handler} {input : Input}
    (hstep : HandlerStep cfg i sh h input h' sh')
    (hheld : h.pc.heldKey.isSome ∨ h.pc.isReturned) :
    h'.pc.heldKey.isSome ∨ h'.pc.isReturned := by
  have hsome : h.pc.heldKey.isSome := by
    rcases hheld with hheld | hreturned
    · exact hheld
    · rw [hstep.not_returned] at hreturned
      cases hreturned
  cases hstep.registry with
  | unchanged _ _ _ hkey => exact .inl (hkey ▸ hsome)
  | bound _ hpc =>
      rw [Pc.heldKey_of_endpoint (Pc.endpoint_of_binding hpc)] at hsome
      cases hsome
  | insertedHttp _ hpc' => exact .inl (by rw [hpc']; rfl)
  | insertedPort hpc =>
      rw [hpc] at hsome
      cases hsome
  | insertedTcp _ hpc' => exact .inl (by rw [hpc']; rfl)
  | removedPort _ hpc' => exact .inl (by rw [hpc']; rfl)
  | removedTunnel _ hpc' => exact .inr (by rw [hpc']; rfl)

theorem SweptHeld.step (hs : SweptHeld s) (hown : Owned s)
    (hstep : s.step cfg label = some s') : SweptHeld s' := by
  intro i hi
  refine System.At.step ?_ hstep fun _ _ _ _ _ _ hhandler => hhandler.held
  rcases mem_swept_step hstep hi with hold | ⟨k, hk⟩
  · exact hs i hold
  · obtain ⟨e, hlookup, rfl⟩ := Shared.holder_eq_some.mp hk
    obtain ⟨h, hget, hheld⟩ := System.exists_of_view (hown.entry k e hlookup)
    exact ⟨h, hget, .inl (by rw [hheld]; rfl)⟩

theorem not_visible_of_tcp_announced (hown : Owned s) (hswept : SweptHeld s) {h : Handler}
    {port : UInt16} (hget : s.handlers[i]? = some h) (hpc : h.pc = .tcpInsertEntry port) :
    ¬ Visible s := by
  intro hvisible
  have hnone : h.pc.heldKey = none := by
    rw [hpc]
    rfl
  have hunswept : i ∉ s.shared.swept := by
    intro hi
    obtain ⟨g, hget', hheld⟩ := hswept i hi
    obtain rfl := Option.some.inj (hget.symm.trans hget')
    rw [hpc] at hheld
    rcases hheld with hheld | hheld <;> cases hheld
  obtain ⟨e, hlookup, hmux⟩ :=
    Shared.holder_eq_some.mp (hvisible i h (.tcp port) hget (by rw [hpc]; rfl) hunswept)
  exact hown.mux_ne hget hnone hlookup hmux

end Swept

section Exact

variable {cfg : Config} {lists : Lists} {labels : List Label} {s s' : System} {label : Label}

theorem Pc.announcing_of_announcingPort {pc : Pc} {port : UInt16}
    (h : pc.announcingPort = some port) : pc = .announcing (.tcp port) := by
  unfold Pc.announcingPort at h
  split at h
  · cases h
    rfl
  · cases h

theorem HandlerStep.announced_tcp {i : MuxId} {sh sh' : Shared} {h h' : Handler} {fault : Fault}
    {port : UInt16} (hstep : HandlerStep cfg i sh h (.wrote fault) h' sh')
    (hpc : h.pc = .announcing (.tcp port))
    (hok : (h.write fault (.registered (tcpUrl cfg port))).1.isOk = true) :
    h'.pc = .tcpInsertEntry port := by
  cases hstep with
  | announced hat =>
      rw [hpc] at hat
      cases hat
      rfl
  | announceFailed hat hwrite =>
      rw [hpc] at hat
      cases hat
      change (h.write fault (.registered (tcpUrl cfg port))).1 = _ at hwrite
      rw [hwrite] at hok
      cases hok
  | _ => simp_all [Pc.Early, Pc.Searching]

theorem noTcpAnnounce_of_visible (hown : Owned s') (hswept : SweptHeld s')
    (hstep : s.step cfg label = some s') (hvisible : Visible s') :
    NoTcpAnnounce cfg s label := by
  unfold NoTcpAnnounce
  split
  · rename_i i fault
    intro h hget port hport
    by_contra hok
    obtain ⟨g, h', sh', hget', hhandler, rfl⟩ := System.handler_cases hstep
    obtain rfl : h = g := Option.some.inj (hget.symm.trans hget')
    have hpc' := hhandler.announced_tcp (Pc.announcing_of_announcingPort hport) (by simpa using hok)
    have hlt : i < s.handlers.length := (List.getElem?_eq_some_iff.mp hget').1
    exact not_visible_of_tcp_announced hown hswept (List.getElem?_set_self hlt) hpc' hvisible
  · trivial

/-- What is known in a run without late cleanups. -/
structure Settled (s : System) : Prop where
  wellFormed : s.WellFormed
  exclusive : HttpExclusive s
  owned : Owned s
  sweptHeld : SweptHeld s

theorem Settled.step (hs : Settled s) (hguard : NoLateCleanup s label)
    (hstep : s.step cfg label = some s') : Settled s' where
  wellFormed := hs.wellFormed.step hstep
  exclusive := hs.exclusive.step hs.wellFormed hguard hstep
  owned := hs.owned.step hs.wellFormed hstep
  sweptHeld := hs.sweptHeld.step hs.owned hstep

theorem settled_reached (hrun : Reached cfg NoLateCleanup lists labels s) : Settled s := by
  refine hrun.invariant ?_ fun t a u ht hguard hstep => ht.step hguard hstep
  exact ⟨System.wellFormed_initial lists, httpExclusive_initial lists, owned_initial lists,
    by rintro i ⟨⟩⟩

theorem visible_of_httpOnly (hrun : Reached cfg (HttpOnly cfg) lists labels s) : Visible s := by
  have hsettled := settled_reached (hrun.mono fun _ _ h => h.1)
  have htcp : NoTcpServed s := by
    refine hrun.invariant ?_ fun t a u ht hguard hstep => ht.step hguard.2 hstep
    intro i h hget
    simp [System.initial] at hget
  exact visible_of_httpOwnership hsettled.exclusive.ownership htcp

/-- Announced tunnels are visible all along a run without late cleanups exactly
when no TCP tunnel is announced in it. -/
theorem visible_along_iff (hrun : Reached cfg NoLateCleanup lists labels s) :
    HoldsAlong (System.step cfg) Visible (System.initial lists) labels ↔
      Reached cfg (HttpOnly cfg) lists labels s := by
  constructor
  · intro halong
    refine hrun.guarded_of_holdsAlong halong fun bs t a u hinit hguard hstep _ hvisible => ?_
    have hu : Settled u := (settled_reached hinit).step hguard hstep
    exact ⟨hguard, noTcpAnnounce_of_visible hu.owned hu.sweptHeld hstep hvisible⟩
  · intro hhttp
    exact hhttp.holdsAlong fun bs u hbs => visible_of_httpOnly hbs

end Exact

section BulkDisconnect

variable {cfg : Config} {lists : Lists} {labels : List Label} {s s' : System} {label : Label}
  {i : MuxId} {h h' : Handler} {sh sh' : Shared} {input : Input}

/-- An entry records the address of the call it belongs to. -/
def EntryIps (s : System) : Prop :=
  ∀ k e, s.shared.tunnels.lookup k = some e → s.At (fun h => e.clientIp = h.clientIp) e.mux

theorem HandlerStep.clientIp (hstep : HandlerStep cfg i sh h input h' sh') :
    h'.clientIp = h.clientIp := by
  cases hstep <;> rfl

theorem HandlerStep.lookup_ip (hstep : HandlerStep cfg i sh h input h' sh')
    (hwf : h.WellFormed i) {k : String} {e : TunnelEntry}
    (hk : sh'.tunnels.lookup k = some e) :
    sh.tunnels.lookup k = some e ∨ (e.mux = i ∧ e.clientIp = h.clientIp) := by
  cases hstep with
  | inserted hpc =>
      rcases lookup_insertTunnel hk with ⟨-, rfl⟩ | ⟨-, hold⟩
      · obtain ⟨hmux, hip, -⟩ := hwf.pending _ (by rw [hpc]; rfl)
        exact .inr ⟨hmux, hip⟩
      · exact .inl hold
  | entryInserted hpc =>
      rcases lookup_insertTunnel hk with ⟨-, rfl⟩ | ⟨-, hold⟩
      · exact .inr ⟨rfl, rfl⟩
      · exact .inl hold
  | cleaned hpc => exact .inl (lookup_removeTunnel hk).2
  | announceFailed =>
      rw [Endpoint.abandon_tunnels] at hk
      exact .inl hk
  | _ => exact .inl hk

theorem EntryIps.step (hs : EntryIps s) (hwf : s.WellFormed)
    (hstep : s.step cfg label = some s') : EntryIps s' := by
  intro k e hk
  have hat : s.At (fun h => e.clientIp = h.clientIp) e.mux := by
    cases System.step_cases hstep with
    | connected client => exact hs k e hk
    | handled hget hhandler =>
        rcases hhandler.lookup_ip (hwf _ _ hget) hk with hold | ⟨rfl, hip⟩
        · exact hs k e hold
        · exact ⟨_, hget, hip⟩
    | evicted _ hevict => exact hs k e (hevict.lookup hk)
    | quiet hquiet => exact hs k e (hquiet.tunnels ▸ hk)
  exact hat.step hstep fun _ _ _ _ _ _ hhandler hip => hip.trans hhandler.clientIp.symm

theorem entryIps_reached {guard : System → Label → Prop}
    (hrun : Reached cfg guard lists labels s) : EntryIps s := by
  have hboth : s.WellFormed ∧ EntryIps s := by
    refine hrun.invariant (I := fun s => s.WellFormed ∧ EntryIps s)
      ⟨System.wellFormed_initial lists, ?_⟩ ?_
    · intro k e hk
      simp [System.initial, Shared.initial] at hk
    · rintro t a u ⟨hwf, ht⟩ _ hstep
      exact ⟨hwf.step hstep, ht.step hwf hstep⟩
  exact hboth.2

/-- The disconnect signal of session `i` was sent, or a pending admin request will
send it. -/
def SignalOwed (i : MuxId) (s : System) : Prop :=
  i ∈ s.shared.signalled ∨ ∃ muxes, AdminTask.disconnecting muxes ∈ s.admins ∧ i ∈ muxes

theorem HandlerStep.signalled (hstep : HandlerStep cfg i sh h input h' sh') :
    sh'.signalled = sh.signalled := by
  cases hstep with
  | @announceFailed _ endpoint => cases endpoint <;> rfl
  | _ => rfl

theorem mem_signalled_foldl (expired : List (Sigma fun _ : String => TunnelEntry))
    (sh : Shared) (hi : i ∈ sh.signalled) :
    i ∈ (expired.foldl (fun sh e => sh.evict e.1 e.2) sh).signalled := by
  induction expired generalizing sh with
  | nil => exact hi
  | cons x expired ih => exact ih _ (List.mem_cons_of_mem _ hi)

theorem SignalOwed.dropTask {n : Nat} {task : AdminTask} (hs : SignalOwed i s)
    (hget : s.admins[n]? = some task)
    (hdone : ∀ muxes, task = .disconnecting muxes → i ∉ muxes)
    (hsent : s'.shared.signalled = s.shared.signalled)
    (hadmins : s'.admins = s.admins.eraseIdx n) : SignalOwed i s' := by
  rcases hs with hs | ⟨owed, howed, hi⟩
  · exact .inl (hsent ▸ hs)
  · obtain ⟨m, hm⟩ := List.mem_iff_getElem?.mp howed
    refine .inr ⟨owed, ?_, hi⟩
    rw [hadmins]
    refine List.mem_eraseIdx_iff_getElem?.mpr ⟨m, ?_, hm⟩
    rintro rfl
    rw [hget] at hm
    cases hm
    exact hdone owed rfl hi

theorem SignalOwed.adminStep {n : Nat} (hs : SignalOwed i s)
    (hstep : s.adminStep n = some s') : SignalOwed i s' := by
  unfold System.adminStep at hstep
  split at hstep
  · rename_i mux muxes hget
    cases hstep
    rcases hs with hsent | ⟨owed, howed, hi⟩
    · exact .inl (List.mem_cons_of_mem _ hsent)
    · obtain ⟨m, hm⟩ := List.mem_iff_getElem?.mp howed
      by_cases hmn : m = n
      · subst hmn
        rw [hget] at hm
        cases hm
        rcases List.mem_cons.mp hi with rfl | hlater
        · exact .inl List.mem_cons_self
        · have hlt : m < s.admins.length := (List.getElem?_eq_some_iff.mp hget).1
          refine .inr ⟨muxes, ?_, hlater⟩
          exact List.mem_of_getElem? (List.getElem?_set_self hlt)
      · refine .inr ⟨owed, ?_, hi⟩
        refine List.mem_of_getElem? (i := m) ?_
        rw [List.getElem?_set_ne (Ne.symm hmn)]
        exact hm
  · rename_i hget
    cases hstep
    refine hs.dropTask hget ?_ rfl rfl
    rintro muxes ⟨⟩
    exact List.not_mem_nil
  · rename_i hget
    cases hstep
    refine hs.dropTask hget ?_ rfl rfl
    rintro muxes ⟨⟩
  · cases hstep

theorem SignalOwed.mono (hs : SignalOwed i s)
    (hsent : i ∈ s.shared.signalled → i ∈ s'.shared.signalled)
    (hadmins : ∀ task ∈ s.admins, task ∈ s'.admins) : SignalOwed i s' := by
  rcases hs with hs | ⟨owed, howed, hi⟩
  · exact .inl (hsent hs)
  · exact .inr ⟨owed, hadmins _ howed, hi⟩

theorem SignalOwed.step (hs : SignalOwed i s) (hstep : s.step cfg label = some s') :
    SignalOwed i s' := by
  cases label with
  | connect client =>
      cases hstep
      exact hs.mono id fun _ => id
  | handler j input =>
      obtain ⟨h, h', sh', hget, hhandler, rfl⟩ := System.handler_cases hstep
      refine hs.mono ?_ fun _ => id
      intro hi
      rw [hhandler.signalled]
      exact hi
  | sweep now =>
      obtain rfl := System.sweep_cases hstep
      exact hs.mono (mem_signalled_foldl _ _) fun _ => id
  | shutdown =>
      obtain rfl := System.shutdown_cases hstep
      exact hs.mono (List.mem_append_right _) fun _ => id
  | reloadAuth | reloadBlocklist | reloadDenylist | removeCustomDomain =>
      cases hstep
      exact hs.mono id fun _ => id
  | disconnectTunnel id =>
      simp only [System.step] at hstep
      split at hstep
      · cases hstep
      · split at hstep
        · cases hstep
          exact hs.mono (fun hi => hi) fun _ => List.mem_cons_of_mem _
        · cases hstep
          exact hs
  | bulkDisconnect clientIp =>
      simp only [System.step] at hstep
      split at hstep
      · cases hstep
      · cases hstep
        exact hs.mono id fun _ => List.mem_cons_of_mem _
  | setCustomDomain tunnelId domain =>
      simp only [System.step] at hstep
      split at hstep
      · cases hstep
      · split at hstep
        · cases hstep
          exact hs.mono id fun _ => List.mem_cons_of_mem _
        · cases hstep
          exact hs
  | adminStep n => exact hs.adminStep hstep
  | lookupDomain host =>
      simp only [System.step] at hstep
      split at hstep <;> cases hstep <;> exact hs.mono id fun _ => id
  | routeDomain n =>
      obtain ⟨lookups, routed, rfl⟩ := System.routeDomain_frame (System.routeDomain_cases hstep)
      exact hs.mono id fun _ => id

theorem signalOwed_bulkDisconnect {clientIp k : String} {e : TunnelEntry}
    (hk : s.shared.tunnels.lookup k = some e) (hip : e.clientIp = clientIp)
    (hstep : s.step cfg (.bulkDisconnect clientIp) = some s') : SignalOwed e.mux s' := by
  simp only [System.step] at hstep
  split at hstep
  · cases hstep
  · cases hstep
    refine .inr ⟨_, List.mem_cons_self, ?_⟩
    have hvalue := KeyedTable.mem_values.mpr ⟨k, hk⟩
    exact List.mem_map_of_mem (List.mem_filter.mpr ⟨hvalue, by simpa using hip⟩)

theorem bulkDisconnect_reaches (hrun : Reached cfg (HttpOnly cfg) lists labels s)
    {clientIp : String} (hstep : s.step cfg (.bulkDisconnect clientIp) = some s')
    {endpoint : Endpoint} (hget : s.handlers[i]? = some h)
    (hpc : h.pc.announcedEndpoint = some endpoint) (hip : h.clientIp = clientIp)
    (hswept : i ∉ s.shared.swept) {later : List Label} {t : System}
    (hlater : FreeRun (System.step cfg) s' later t) : SignalOwed i t := by
  obtain ⟨e, hk, hmux⟩ :=
    Shared.holder_eq_some.mp (visible_of_httpOnly hrun i h endpoint hget hpc hswept)
  obtain ⟨g, hget', hentry⟩ := entryIps_reached hrun _ e hk
  rw [hmux] at hget'
  obtain rfl : h = g := Option.some.inj (hget.symm.trans hget')
  refine hlater.invariant ?_ fun t a u ht _ hstep => ht.step hstep
  have howed := signalOwed_bulkDisconnect hk (hentry.trans hip) hstep
  rwa [hmux] at howed

end BulkDisconnect

/-- A tunnel is visible before it is announced: exactly in the runs that announce no
TCP tunnel; and there a bulk disconnect reaches every tunnel announced before. -/
theorem visible_before_announced {cfg : Config} {lists : Lists} {labels : List Label}
    {s : System} (hrun : Reached cfg NoLateCleanup lists labels s) :
    (HoldsAlong (System.step cfg) Visible (System.initial lists) labels ↔
      Reached cfg (HttpOnly cfg) lists labels s) ∧
    (Reached cfg (HttpOnly cfg) lists labels s →
      ∀ clientIp s', s.step cfg (.bulkDisconnect clientIp) = some s' →
      ∀ i h endpoint, s.handlers[i]? = some h → h.pc.announcedEndpoint = some endpoint →
      h.clientIp = clientIp → i ∉ s.shared.swept →
      ∀ later t, FreeRun (System.step cfg) s' later t →
        i ∈ t.shared.signalled ∨
          ∃ muxes, AdminTask.disconnecting muxes ∈ t.admins ∧ i ∈ muxes) := by
  refine ⟨visible_along_iff hrun, ?_⟩
  intro hhttp clientIp s' hstep i h endpoint hget hpc hip hswept later t hlater
  exact bulkDisconnect_reaches hhttp hstep hget hpc hip hswept hlater

def announcedHttp : List Label :=
  .connect documentationIp :: httpRegistration 0 "app" 0 ++ [.handler 0 (.wrote none)]

theorem visible_before_announced_http :
    ∃ s, Reached (.unlimited "relay.test") NoLateCleanup .disabled announcedHttp s ∧
      HoldsAlong (System.step (.unlimited "relay.test")) Visible (System.initial .disabled)
        announcedHttp := by
  have hexec : (execGuarded (System.step (.unlimited "relay.test"))
      (HttpOnly (.unlimited "relay.test")) (System.initial .disabled) announcedHttp).map
        (fun s => s.shared.holder "app") = some (some 0) := by
    decide +kernel
  obtain ⟨s, hrun, -⟩ := exists_run hexec
  have hbase := hrun.mono fun _ _ h => h.1
  exact ⟨s, hbase, (visible_before_announced hbase).1.mpr hrun⟩

/-- A TCP tunnel is announced, and before its entry is inserted an admin disconnects
everything that comes from its address. -/
def announcedTcp : List Label :=
  .connect documentationIp :: admission 0 (.tcp 2222) ++
    [.proceed, .bound true, .proceed, .wrote none].map (.handler 0) ++
    [.bulkDisconnect documentationIp.toString]

theorem not_visible_announcedTcp :
    ¬ ∀ (cfg : Config) (lists : Lists) (labels : List Label) (s : System),
      FreeRun (System.step cfg) (System.initial lists) labels s → Visible s := by
  intro hall
  have hexec : (exec (System.step (.unlimited "relay.test")) (System.initial .disabled)
      announcedTcp).map (fun s => (s.view Pc.announcedEndpoint 0,
        s.shared.holder (tcpKey 2222), s.shared.swept)) =
        some (some (.tcp 2222), none, []) := by
    decide +kernel
  obtain ⟨s, hrun, hfacts⟩ := exists_freeRun hexec
  simp only [Prod.mk.injEq] at hfacts
  obtain ⟨hview, hholder, hswept⟩ := hfacts
  obtain ⟨h, hget, hpc⟩ := System.exists_of_view hview
  have hvisible := hall _ _ _ s hrun 0 h (.tcp 2222) hget hpc (by simp [hswept])
  rw [show (Endpoint.tcp 2222).key = tcpKey 2222 from rfl, hholder] at hvisible
  cases hvisible

end Seamless.Relay
