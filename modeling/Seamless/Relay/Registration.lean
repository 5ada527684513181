import Seamless.Relay.System

/-!
Who is responsible for what stands in the registry. Every entry and every port
belongs to a call that still has its cleanup ahead, except when the `Registered`
reply could not be written: `serve_http` and `serve_tcp` then return at once.
-/

namespace Seamless.Relay

open Seamless.Common
open Seamless.Library
open Seamless.Library.TransitionSystem

/-- Every entry stands under the key that its handler holds, and every port is
one that its handler holds. -/
structure Owned (s : System) : Prop where
  entry : ∀ k e, s.shared.tunnels.lookup k = some e → s.view Pc.heldKey e.mux = some k
  port : ∀ p i, (p, i) ∈ s.shared.tcpPorts → s.view Pc.heldPort i = some p

theorem owned_initial (lists : Lists) : Owned (System.initial lists) where
  entry := by
    intro k e hk
    simp [System.initial, Shared.initial] at hk
  port := by
    intro p i hp
    simp [System.initial, Shared.initial] at hp

section Step

variable {cfg : Config} {s s' : System} {i : MuxId} {h h' : Handler} {sh' : Shared}

theorem view_ne_of_get {α : Type} {f : Pc → Option α} {a : α}
    (hget : s.handlers[i]? = some h) (hnone : f h.pc = none) : s.view f i ≠ some a := by
  rw [System.view_of_get hget, hnone]
  simp

theorem Owned.mux_ne (hs : Owned s) (hget : s.handlers[i]? = some h)
    (hnone : h.pc.heldKey = none) {k : String} {e : TunnelEntry}
    (hk : s.shared.tunnels.lookup k = some e) : e.mux ≠ i := by
  rintro rfl
  exact view_ne_of_get hget hnone (hs.entry k e hk)

theorem Owned.port_notMem (hs : Owned s) (hget : s.handlers[i]? = some h)
    (hnone : h.pc.heldPort = none) (p : UInt16) : (p, i) ∉ s.shared.tcpPorts :=
  fun hp => view_ne_of_get hget hnone (hs.port p i hp)

theorem view_set_of_same {α : Type} {f : Pc → Option α} {j : MuxId} {a : α}
    (hget : s.handlers[i]? = some h) (hsame : j = i → f h'.pc = f h.pc)
    (hview : s.view f j = some a) :
    System.view f { s with shared := sh', handlers := s.handlers.set i h' } j = some a := by
  by_cases hj : j = i
  · subst hj
    rw [System.view_of_get hget] at hview
    rw [System.view_set_self hget, hsame rfl, hview]
  · rw [System.view_set_ne hj]
    exact hview

theorem Owned.handled (hs : Owned s) (hget : s.handlers[i]? = some h)
    (hentry : ∀ k e, sh'.tunnels.lookup k = some e →
      (s.shared.tunnels.lookup k = some e ∧ (e.mux = i → h'.pc.heldKey = h.pc.heldKey)) ∨
      (e.mux = i ∧ h'.pc.heldKey = some k))
    (hport : ∀ p j, (p, j) ∈ sh'.tcpPorts →
      ((p, j) ∈ s.shared.tcpPorts ∧ (j = i → h'.pc.heldPort = h.pc.heldPort)) ∨
      (j = i ∧ h'.pc.heldPort = some p)) :
    Owned { s with shared := sh', handlers := s.handlers.set i h' } where
  entry := by
    intro k e hk
    rcases hentry k e hk with ⟨hold, hsame⟩ | ⟨hmux, hnew⟩
    · exact view_set_of_same hget hsame (hs.entry k e hold)
    · rw [hmux, System.view_set_self hget]
      exact hnew
  port := by
    intro p j hp
    rcases hport p j hp with ⟨hold, hsame⟩ | ⟨hj, hnew⟩
    · exact view_set_of_same hget hsame (hs.port p j hold)
    · rw [hj, System.view_set_self hget]
      exact hnew

theorem lookup_insertTunnel {sh : Shared} {key k : String} {entry e : TunnelEntry}
    (hk : (sh.insertTunnel key entry).tunnels.lookup k = some e) :
    (k = key ∧ e = entry) ∨ (k ≠ key ∧ sh.tunnels.lookup k = some e) := by
  by_cases hkey : k = key
  · subst hkey
    simp only [Shared.insertTunnel, AList.lookup_insert, Option.some.injEq] at hk
    exact .inl ⟨rfl, hk.symm⟩
  · simp only [Shared.insertTunnel, AList.lookup_insert_ne hkey] at hk
    exact .inr ⟨hkey, hk⟩

theorem lookup_removeTunnel {sh : Shared} {key k : String} {e : TunnelEntry}
    (hk : (sh.removeTunnel key).tunnels.lookup k = some e) :
    k ≠ key ∧ sh.tunnels.lookup k = some e := by
  by_cases hkey : k = key
  · subst hkey
    simp [Shared.removeTunnel] at hk
  · simp only [Shared.removeTunnel, AList.lookup_erase_ne hkey] at hk
    exact ⟨hkey, hk⟩

theorem Owned.insertTunnel (hs : Owned s) (hget : s.handlers[i]? = some h) {key : String}
    {entry : TunnelEntry} (hmux : entry.mux = i) (hnone : h.pc.heldKey = none)
    (hkey : h'.pc.heldKey = some key) (hport : h'.pc.heldPort = h.pc.heldPort) :
    Owned { s with
      shared := s.shared.insertTunnel key entry
      handlers := s.handlers.set i h' } := by
  refine hs.handled hget ?_ fun p j hp => .inl ⟨hp, fun _ => hport⟩
  intro k e hk
  rcases lookup_insertTunnel hk with ⟨rfl, rfl⟩ | ⟨_, hold⟩
  · exact .inr ⟨hmux, hkey⟩
  · exact .inl ⟨hold, fun hown => absurd hown (hs.mux_ne hget hnone hold)⟩

theorem Owned.handlerStep {input : Input} (hs : Owned s) (hwf : s.WellFormed)
    (hget : s.handlers[i]? = some h) (hstep : HandlerStep cfg i s.shared h input h' sh') :
    Owned { s with shared := sh', handlers := s.handlers.set i h' } := by
  cases hstep.registry with
  | unchanged htunnels hports _ hkey hport =>
      refine hs.handled hget ?_ ?_
      · intro k e hk
        exact .inl ⟨htunnels ▸ hk, fun _ => hkey⟩
      · intro p j hp
        exact .inl ⟨hports ▸ hp, fun _ => hport⟩
  | bound _ hpc hpc' _ hsh =>
      subst hsh
      have hkey := Pc.heldKey_of_endpoint (Pc.endpoint_of_binding hpc)
      have hport := Pc.heldPort_of_endpoint (Pc.endpoint_of_binding hpc)
      refine hs.handled hget ?_ ?_
      · intro k e hk
        exact .inl ⟨hk, fun _ => by rw [hpc', hkey]; rfl⟩
      · intro p j hp
        exact .inl ⟨hp, fun _ => by rw [hpc', hport]; rfl⟩
  | insertedHttp hpc hpc' _ hsh =>
      subst hsh
      obtain ⟨hmux, -, -⟩ := (hwf i h hget).pending _ (by rw [hpc]; rfl)
      exact hs.insertTunnel hget hmux (by rw [hpc]; rfl) (by rw [hpc']; rfl)
        (by rw [hpc, hpc']; rfl)
  | insertedPort hpc hpc' hsh =>
      subst hsh
      refine hs.handled hget ?_ ?_
      · intro k e hk
        exact .inl ⟨hk, fun _ => by rw [hpc, hpc']; rfl⟩
      · intro p j hp
        rcases List.mem_cons.mp hp with hnew | hold
        · cases hnew
          exact .inr ⟨rfl, by rw [hpc']; rfl⟩
        · refine .inl ⟨hold, ?_⟩
          rintro rfl
          exact absurd hold (hs.port_notMem hget (by rw [hpc]; rfl) p)
  | insertedTcp hpc hpc' hmux hsh =>
      subst hsh
      exact hs.insertTunnel hget hmux (by rw [hpc]; rfl) (by rw [hpc']; rfl)
        (by rw [hpc, hpc']; rfl)
  | removedPort hpc hpc' hsh =>
      subst hsh
      refine hs.handled hget ?_ ?_
      · intro k e hk
        exact .inl ⟨hk, fun _ => by rw [hpc, hpc']; rfl⟩
      · intro p j hp
        obtain ⟨hold, hne⟩ := List.mem_filter.mp hp
        refine .inl ⟨hold, ?_⟩
        rintro rfl
        have hheld := hs.port p j hold
        rw [System.view_of_get hget, hpc] at hheld
        cases hheld
        simp at hne
  | removedTunnel hpc hpc' hsh =>
      subst hsh
      refine hs.handled hget ?_ ?_
      · intro k e hk
        obtain ⟨hne, hold⟩ := lookup_removeTunnel hk
        refine .inl ⟨hold, ?_⟩
        rintro rfl
        have hheld := hs.entry k e hold
        rw [System.view_of_get hget, hpc] at hheld
        cases hheld
        exact absurd rfl hne
      · intro p j hp
        exact .inl ⟨hp, fun _ => by rw [hpc, hpc']; rfl⟩

theorem Owned.step {label : Label} (hs : Owned s) (hwf : s.WellFormed)
    (hstep : s.step cfg label = some s') : Owned s' := by
  cases System.step_cases hstep with
  | connected client =>
      constructor
      · intro k e hk
        rw [System.view_connect client rfl]
        exact hs.entry k e hk
      · intro p i hp
        rw [System.view_connect client rfl]
        exact hs.port p i hp
  | handled hget hhandler => exact hs.handlerStep hwf hget hhandler
  | evicted _ hevict =>
      refine ⟨fun k e hk => hs.entry k e (hevict.lookup hk), ?_⟩
      intro p i hp
      exact hs.port p i (hevict.tcpPorts ▸ hp)
  | quiet hquiet =>
      constructor
      · intro k e hk
        have hold := hs.entry k e (hquiet.tunnels ▸ hk)
        simpa [System.view, hquiet.handlers] using hold
      · intro p i hp
        have hold := hs.port p i (hquiet.tcpPorts ▸ hp)
        simpa [System.view, hquiet.handlers] using hold

end Step

section Others

variable {cfg : Config} {i j : MuxId} {sh sh' : Shared} {h h' : Handler} {input : Input}

theorem HandlerStep.lookup_of_ne (hstep : HandlerStep cfg i sh h input h' sh')
    (hwf : h.WellFormed i) {k : String} {e : TunnelEntry}
    (hk : sh'.tunnels.lookup k = some e) (hmux : e.mux ≠ i) :
    sh.tunnels.lookup k = some e := by
  cases hstep.tunnels with
  | unchanged htunnels => exact htunnels ▸ hk
  | insertedHttp hpc _ hsh =>
      subst hsh
      obtain ⟨hown, -, -⟩ := hwf.pending _ (by rw [hpc]; rfl)
      rcases lookup_insertTunnel hk with ⟨-, rfl⟩ | ⟨-, hold⟩
      · exact absurd hown hmux
      · exact hold
  | insertedTcp _ hown hsh =>
      subst hsh
      rcases lookup_insertTunnel hk with ⟨-, rfl⟩ | ⟨-, hold⟩
      · exact absurd hown hmux
      · exact hold
  | removed _ hsh =>
      subst hsh
      exact (lookup_removeTunnel hk).2

theorem HandlerStep.port_of_ne (hstep : HandlerStep cfg i sh h input h' sh') {p : UInt16}
    (hp : (p, j) ∈ sh'.tcpPorts) (hj : j ≠ i) : (p, j) ∈ sh.tcpPorts := by
  cases hstep.registry with
  | unchanged _ hports => exact hports ▸ hp
  | bound _ _ _ _ hsh =>
      cases hsh
      exact hp
  | insertedHttp _ _ _ hsh =>
      cases hsh
      exact hp
  | insertedPort _ _ hsh =>
      subst hsh
      rcases List.mem_cons.mp hp with hnew | hold
      · cases hnew
        exact absurd rfl hj
      · exact hold
  | insertedTcp _ _ _ hsh =>
      cases hsh
      exact hp
  | removedPort _ _ hsh =>
      subst hsh
      exact (List.mem_filter.mp hp).1
  | removedTunnel _ _ hsh =>
      cases hsh
      exact hp

end Others

/-- No registration outlives its handler: once a call has returned, the registry
holds nothing that it inserted. -/
def ReturnsClean (s : System) : Prop :=
  ∀ i h result, s.handlers[i]? = some h → h.pc = .returned result →
    (∀ k e, s.shared.tunnels.lookup k = some e → e.mux ≠ i) ∧
      ∀ p, (p, i) ∉ s.shared.tcpPorts

/-- What the call has inserted when it announces `endpoint` is still there. -/
def Endpoint.InPlace (sh : Shared) (i : MuxId) : Endpoint → Prop
  | .http sub => ∃ e, sh.tunnels.lookup sub = some e ∧ e.mux = i
  | .tcp port => (port, i) ∈ sh.tcpPorts

/-- The `Registered` reply of a call whose insertion is still there can be
written. -/
def ReplyArrives (cfg : Config) (s : System) : Label → Prop
  | .handler i (.wrote fault) => ∀ h endpoint, s.handlers[i]? = some h →
      h.pc = .announcing endpoint → endpoint.InPlace s.shared i →
        (h.write fault (.registered (endpoint.url cfg))).1 = .ok ()
  | _ => True

section ReturnsClean

variable {cfg : Config} {s s' : System} {i : MuxId} {h : Handler}

theorem step_announceFailed {fault : Fault} {endpoint : Endpoint} {e : CodecError}
    {w : Handler} (hget : s.handlers[i]? = some h) (hpc : h.pc = .announcing endpoint)
    (hwrite : h.write fault (.registered (endpoint.url cfg)) = (.error e, w)) :
    s.step cfg (.handler i (.wrote fault)) =
      some { s with
        shared := endpoint.abandon s.shared
        handlers := s.handlers.set i (w.goto (.returned (.error (.announce endpoint e)))) } := by
  simp [System.step, hget, Handler.step, hpc, hwrite]

theorem Owned.clean (hs : Owned s) (hget : s.handlers[i]? = some h)
    (hnone : h.pc.endpoint = none) :
    (∀ k e, s.shared.tunnels.lookup k = some e → e.mux ≠ i) ∧
      ∀ p, (p, i) ∉ s.shared.tcpPorts :=
  ⟨fun _ _ hk => hs.mux_ne hget (Pc.heldKey_of_endpoint hnone) hk,
    hs.port_notMem hget (Pc.heldPort_of_endpoint hnone)⟩

theorem Owned.clean_of_announcing (hs : Owned s) {endpoint : Endpoint}
    (hget : s.handlers[i]? = some h) (hpc : h.pc = .announcing endpoint)
    (hgone : ¬ endpoint.InPlace s.shared i) :
    (∀ k e, s.shared.tunnels.lookup k = some e → e.mux ≠ i) ∧
      ∀ p, (p, i) ∉ s.shared.tcpPorts := by
  cases endpoint with
  | http sub =>
      refine ⟨?_, hs.port_notMem hget (by rw [hpc]; rfl)⟩
      rintro k e hk rfl
      have hheld := hs.entry k e hk
      rw [System.view_of_get hget, hpc] at hheld
      cases hheld
      exact hgone ⟨e, hk, rfl⟩
  | tcp port =>
      refine ⟨fun k e hk => hs.mux_ne hget (by rw [hpc]; rfl) hk, ?_⟩
      intro p hp
      have hheld := hs.port p i hp
      rw [System.view_of_get hget, hpc] at hheld
      cases hheld
      exact hgone hp

/-- The only step by which a call returns with an endpoint is a failed
`Registered` write. -/
theorem HandlerStep.announceFailed_of_returned {sh sh' : Shared} {h' : Handler}
    {input : Input} {result : Except HandleError Unit}
    (hstep : HandlerStep cfg i sh h input h' sh') (hret : h'.pc = .returned result)
    (hsome : h'.pc.endpoint ≠ none) :
    ∃ fault endpoint e, input = .wrote fault ∧ h.pc = .announcing endpoint ∧
      (h.write fault (.registered (endpoint.url cfg))).1 = .error e ∧
      sh' = endpoint.abandon sh := by
  cases hstep with
  | announceFailed hpc hwrite => exact ⟨_, _, _, rfl, hpc, hwrite, rfl⟩
  | giveUp _ he => exact absurd he.endpoint hsome
  | advance _ _ hpc' => exact absurd hpc'.endpoint hsome
  | search _ hpc' => exact absurd hpc'.endpoint hsome
  | announced hpc hwrite =>
      rename_i endpoint
      cases endpoint <;> cases hret
  | pinged hpc =>
      rw [Handler.write_pc, hpc] at hret
      cases hret
  | drained hpc =>
      rw [hpc] at hret
      cases hret
  | left hpc =>
      rename_i endpoint
      cases endpoint <;> cases hret
  | pingFailed hpc =>
      rename_i endpoint
      cases endpoint <;> cases hret
  | refused => exact absurd rfl hsome
  | takenReply => exact absurd rfl hsome
  | cleaned => exact absurd rfl hsome
  | _ => cases hret

/-- Exactly the failed `Registered` writes with the insertion in place make a
registration outlive its handler. -/
theorem returnsClean_step_iff {label : Label} (hwf : s.WellFormed) (hs : Owned s)
    (hclean : ReturnsClean s) (hstep : s.step cfg label = some s') :
    ReturnsClean s' ↔ ReplyArrives cfg s label := by
  constructor
  · intro hclean'
    cases label with
    | handler i input =>
        cases input with
        | wrote fault =>
            intro h endpoint hget hpc hplace
            rcases hwrite : h.write fault (.registered (endpoint.url cfg)) with ⟨e | _, w⟩
            · rw [step_announceFailed hget hpc hwrite] at hstep
              cases hstep
              have hlt : i < s.handlers.length := (List.getElem?_eq_some_iff.mp hget).1
              obtain ⟨hentries, hports⟩ :=
                hclean' i _ _ (List.getElem?_set_self hlt) rfl
              cases endpoint with
              | http sub =>
                  obtain ⟨e, hk, hmux⟩ := hplace
                  exact absurd hmux (hentries sub e hk)
              | tcp port => exact absurd hplace (hports port)
            · rfl
        | _ => trivial
    | _ => trivial
  · intro harrives j g result hj hret
    have hs' := hs.step hwf hstep
    by_cases hnone : g.pc.endpoint = none
    · exact hs'.clean hj hnone
    cases System.step_cases hstep with
    | connected client =>
        rcases getElem?_concat_cases hj with hold | rfl
        · exact hclean j g result hold hret
        · cases hret
    | handled hget hhandler =>
        rcases getElem?_set_cases hget hj with ⟨rfl, rfl⟩ | ⟨hne, hold⟩
        · obtain ⟨fault, endpoint, e, rfl, hpc, hwrite, rfl⟩ :=
            hhandler.announceFailed_of_returned hret hnone
          have hgone : ¬ endpoint.InPlace s.shared j := by
            intro hplace
            rw [harrives _ _ hget hpc hplace] at hwrite
            cases hwrite
          simpa using hs.clean_of_announcing hget hpc hgone
        · obtain ⟨hentries, hports⟩ := hclean j g result hold hret
          refine ⟨?_, fun p hp => hports p (hhandler.port_of_ne hp hne)⟩
          intro k e hk hmux
          refine hentries k e (hhandler.lookup_of_ne (hwf _ _ hget) hk ?_) hmux
          rw [hmux]
          exact hne
    | evicted _ hevict =>
        obtain ⟨hentries, hports⟩ := hclean j g result hj hret
        exact ⟨fun k e hk => hentries k e (hevict.lookup hk),
          fun p hp => hports p (hevict.tcpPorts ▸ hp)⟩
    | quiet hquiet =>
        obtain ⟨hentries, hports⟩ := hclean j g result (hquiet.handlers ▸ hj) hret
        exact ⟨fun k e hk => hentries k e (hquiet.tunnels ▸ hk),
          fun p hp => hports p (hquiet.tcpPorts ▸ hp)⟩

end ReturnsClean

/-- Along a run of the relay no registration outlives its handler if and only if
every `Registered` reply is written while the insertion it announces is in
place. -/
theorem returnsClean_iff_replyArrives {cfg : Config} {lists : Lists} {labels : List Label}
    {s : System} (hrun : FreeRun (System.step cfg) (System.initial lists) labels s) :
    HoldsAlong (System.step cfg) ReturnsClean (System.initial lists) labels ↔
      Reached cfg (ReplyArrives cfg) lists labels s := by
  refine hrun.holdsAlong_iff (I := fun s => s.WellFormed ∧ Owned s)
    ⟨System.wellFormed_initial lists, owned_initial lists⟩ ?_ ?_ ?_
  · rintro t a u ⟨hwf, hs⟩ hstep
    exact ⟨hwf.step hstep, hs.step hwf hstep⟩
  · intro i h result hi
    simp [System.initial] at hi
  · rintro t a u ⟨hwf, hs⟩ hclean hstep
    exact returnsClean_step_iff hwf hs hclean hstep

/-- A client that registers, is told so, and closes its control stream. -/
def orderlyClose : List Label :=
  .connect documentationIp :: httpRegistration 0 "app" 0 ++
    [.wrote none, .drained (some 0), .proceed].map (.handler 0)

theorem returnsClean_iff_replyArrives_orderlyClose :
    ∃ s, FreeRun (System.step (.unlimited "relay.test")) (System.initial .disabled)
        orderlyClose s ∧
      (HoldsAlong (System.step (.unlimited "relay.test")) ReturnsClean
          (System.initial .disabled) orderlyClose ↔
        Reached (.unlimited "relay.test") (ReplyArrives (.unlimited "relay.test")) .disabled
          orderlyClose s) := by
  have hexec : (exec (System.step (.unlimited "relay.test")) (System.initial .disabled)
      orderlyClose).map (fun s => s.shared.holder "app") = some none := by
    decide +kernel
  obtain ⟨s, hrun, -⟩ := exists_freeRun hexec
  exact ⟨s, hrun, returnsClean_iff_replyArrives hrun⟩

/-- A client whose connection breaks while the `Registered` frame is written. -/
def brokenReply : List Label :=
  .connect documentationIp :: httpRegistration 0 "app" 0 ++
    [.handler 0 (.wrote (some (0, .other 32)))]

theorem not_returnsClean_brokenReply :
    ¬ ∀ (cfg : Config) (lists : Lists) (labels : List Label) (s : System),
      FreeRun (System.step cfg) (System.initial lists) labels s → ReturnsClean s := by
  intro hall
  have hexec : (exec (System.step (.unlimited "relay.test")) (System.initial .disabled)
      brokenReply).map (fun s => (s.shared.holder "app",
        (s.handlers[0]?).map fun h => h.pc.isReturned)) = some (some 0, some true) := by
    decide +kernel
  obtain ⟨s, hrun, hfacts⟩ := exists_freeRun hexec
  obtain ⟨hholder, hreturned⟩ := Prod.mk.inj hfacts
  obtain ⟨e, hk, hmux⟩ := Option.map_eq_some_iff.mp hholder
  obtain ⟨h, hget, hpc⟩ := Option.map_eq_some_iff.mp hreturned
  cases hresult : h.pc with
  | returned result => exact (hall _ _ _ s hrun 0 h result hget hresult).1 _ e hk hmux
  | _ => simp [hresult, Pc.isReturned] at hpc

end Seamless.Relay
