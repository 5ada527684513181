import Seamless.Library.Tenancy
import Seamless.Relay.HttpOwnership

/-!
Ports of TCP tunnels as tenancies. A closing handler drops its listener first
and erases the port and the map key afterwards, by value, so a handler that
binds the port in between loses its records to that cleanup.
-/

namespace Seamless.Relay

open Seamless.Library
open Seamless.Library.TransitionSystem

theorem tcpKey_injective {p q : UInt16} (h : tcpKey p = tcpKey q) : p = q := by
  have hrepr : toString p.toNat = toString q.toNat := by
    have hlist := congrArg String.toList h
    simp only [tcpKey, String.toList_append, List.append_cancel_left_eq] at hlist
    exact String.toList_injective hlist
  have hdigits : Nat.toDigits 10 p.toNat = Nat.toDigits 10 q.toNat := by
    simpa using congrArg String.toList hrepr
  have hvalue := congrArg (Nat.ofDigitChars 10 · 0) hdigits
  simp only [Nat.ofDigitChars_ten_toDigits] at hvalue
  exact UInt16.toNat_inj.mp hvalue

/-- A live listener of a handler is the one the operating system has. -/
def Listening (s : System) : Prop :=
  ∀ i p, s.view Pc.listening i = some p → s.shared.listeners.lookup p = some i

theorem Listening.step {cfg : Config} {s s' : System} {label : Label} (hs : Listening s)
    (hstep : s.step cfg label = some s') : Listening s' := by
  cases System.step_cases hstep with
  | connected client =>
      intro j p hj
      rw [System.view_connect client rfl] at hj
      exact hs j p hj
  | @handled i _ h h' sh' hget hhandler =>
      intro j p hj
      by_cases hji : j = i
      · subst hji
        rw [System.view_set_self hget] at hj
        cases hhandler.listener with
        | unchanged hlisteners hlistening =>
            rw [hlistening] at hj
            exact hlisteners ▸ hs j p ((System.view_of_get hget).trans hj)
        | bound _ hpc' _ hlisteners =>
            rw [hpc'] at hj
            cases hj
            simp [hlisteners]
        | dropped _ hpc' =>
            rw [hpc'] at hj
            cases hj
      · rw [System.view_set_ne hji] at hj
        have hold := hs j p hj
        cases hhandler.listener with
        | unchanged hlisteners => exact hlisteners ▸ hold
        | @bound port _ _ hfree hlisteners =>
            have hne : p ≠ port := by
              rintro rfl
              rw [hfree] at hold
              cases hold
            simpa [hlisteners, AList.lookup_insert_ne hne] using hold
        | @dropped port hpc _ hlisteners =>
            -- The listener that goes away is `i`'s, so `j` cannot be on the same port.
            have hne : p ≠ port := by
              rintro rfl
              have hown := hs i _ ((System.view_of_get hget).trans hpc)
              rw [hold] at hown
              exact hji (Option.some.inj hown)
            simpa [hlisteners, AList.lookup_erase_ne hne] using hold
  | evicted _ hevict =>
      intro j p hj
      exact hevict.listeners ▸ hs j p hj
  | quiet hquiet =>
      intro j p hj
      rw [hquiet.listeners]
      exact hs j p (by simpa [System.view, hquiet.handlers] using hj)

def Endpoint.port : Endpoint → Option UInt16
  | .http _ => none
  | .tcp port => some port

/-- The port of a call that has bound it and not yet finished. -/
def Pc.tcpPort (pc : Pc) : Option UInt16 :=
  if pc.isReturned then none else pc.endpoint.bind Endpoint.port

/-- The tenancy of ports. The record of a tenant is the port in the port set and
the entry under the key, each from the moment it is inserted. -/
def tcpTenancy (s : System) : Tenancy UInt16 MuxId where
  tenant i := s.view Pc.tcpPort i
  recorded _ := True
  table p i :=
    (s.view Pc.heldPort i = some p → (p, i) ∈ s.shared.tcpPorts) ∧
      (s.view Pc.heldKey i = some (tcpKey p) → s.shared.holder (tcpKey p) = some i)

/-- Nobody binds a port that another handler has let go of but not yet cleaned
up, and nothing is evicted. -/
def NoEarlyBind (s : System) : Label → Prop
  | .handler i (.bound true) => ∀ h ∈ s.handlers[i]?, ∀ p ∈ h.pc.binding,
      ∀ g ∈ s.handlers, g.pc.vacating ≠ some p
  | .sweep _ => False
  | .shutdown => False
  | _ => True

/-- Decided without an enumeration of all ports. -/
instance : ∀ (s : System) (label : Label), Decidable (NoEarlyBind s label)
  | s, .handler i (.bound true) =>
      decidable_of_iff ((s.handlers[i]?).all fun h => h.pc.binding.all fun p =>
        s.handlers.all fun g => g.pc.vacating != some p)
        (by simp [NoEarlyBind, Option.all_eq_true])
  | _, .handler _ (.bound false) | _, .handler _ .proceed | _, .handler _ (.received _)
  | _, .handler _ (.instant _) | _, .handler _ (.named _ _ _) | _, .handler _ (.picked _)
  | _, .handler _ (.wrote _) | _, .handler _ (.clocks _ _) | _, .handler _ .disconnected
  | _, .handler _ (.ticked _) | _, .handler _ (.drained _) => .isTrue trivial
  | _, .sweep _ | _, .shutdown => .isFalse id
  | _, .connect _ | _, .reloadAuth _ | _, .reloadBlocklist _ | _, .reloadDenylist _
  | _, .disconnectTunnel _ | _, .bulkDisconnect _ | _, .setCustomDomain _ _
  | _, .removeCustomDomain _ | _, .adminStep _ | _, .lookupDomain _ | _, .routeDomain _ =>
      .isTrue trivial

section Step

variable {cfg : Config} {s s' : System} {i : MuxId} {h h' : Handler} {sh' : Shared}

theorem Pc.tcpPort_eq_some {pc : Pc} {p : UInt16} :
    pc.tcpPort = some p ↔ pc.isReturned = false ∧ pc.endpoint = some (.tcp p) := by
  unfold Pc.tcpPort
  split
  · rename_i hreturned
    simp [hreturned]
  · rename_i hreturned
    rw [Option.bind_eq_some_iff]
    constructor
    · rintro ⟨endpoint, hendpoint, hport⟩
      cases endpoint with
      | http sub => cases hport
      | tcp port =>
          cases hport
          exact ⟨by simpa using hreturned, hendpoint⟩
    · rintro ⟨-, hendpoint⟩
      exact ⟨_, hendpoint, rfl⟩

theorem Pc.listening_or_vacating {pc : Pc} {p : UInt16} (hport : pc.tcpPort = some p) :
    pc.listening = some p ∨ pc.vacating = some p := by
  obtain ⟨hreturned, hendpoint⟩ := Pc.tcpPort_eq_some.mp hport
  unfold Pc.endpoint at hendpoint
  split at hendpoint <;> cases hendpoint <;>
    first | exact .inl rfl | exact .inr rfl | cases hreturned

theorem tcpExclusive_handled (hs : (tcpTenancy s).Exclusive)
    (hget : s.handlers[i]? = some h)
    (hentry : ∀ p, h'.pc.tcpPort = some p →
      h.pc.tcpPort = some p ∨ ∀ o, o ≠ i → (tcpTenancy s).tenant o ≠ some p)
    (hport : ∀ p, h'.pc.tcpPort = some p → h'.pc.heldPort = some p → (p, i) ∈ sh'.tcpPorts)
    (hkey : ∀ p, h'.pc.tcpPort = some p → h'.pc.heldKey = some (tcpKey p) →
      sh'.holder (tcpKey p) = some i)
    (hports : ∀ o p, o ≠ i → (tcpTenancy s).tenant o = some p →
      (p, o) ∈ s.shared.tcpPorts → (p, o) ∈ sh'.tcpPorts)
    (hkeys : ∀ o p, o ≠ i → (tcpTenancy s).tenant o = some p →
      s.shared.holder (tcpKey p) = some o → sh'.holder (tcpKey p) = some o) :
    (tcpTenancy { s with shared := sh', handlers := s.handlers.set i h' }).Exclusive := by
  have hself : ∀ {α : Type} (f : Pc → Option α),
      System.view f { s with shared := sh', handlers := s.handlers.set i h' } i = f h'.pc :=
    fun f => System.view_set_self hget
  have hother : ∀ {α : Type} (f : Pc → Option α) (o : MuxId), o ≠ i →
      System.view f { s with shared := sh', handlers := s.handlers.set i h' } o = s.view f o :=
    fun f o ho => System.view_set_ne ho
  refine hs.step i ?_ ?_ ?_ ?_ ?_
  · exact fun o ho => hother _ o ho
  · exact fun _ _ _ => trivial
  · intro p hp
    rcases hentry p ((hself _).symm.trans hp) with hold | hfree
    · exact .inl ((System.view_of_get hget).trans hold)
    · exact .inr hfree
  · intro p hp _
    have htenant : h'.pc.tcpPort = some p := (hself _).symm.trans hp
    exact ⟨fun hheld => hport p htenant ((hself _).symm.trans hheld),
      fun hheld => hkey p htenant ((hself _).symm.trans hheld)⟩
  · rintro o p hoi ho - ⟨hrecPort, hrecKey⟩
    refine ⟨fun hheld => hports o p hoi ho (hrecPort ?_),
      fun hheld => hkeys o p hoi ho (hrecKey ?_)⟩
    · exact (hother _ o hoi).symm.trans hheld
    · exact (hother _ o hoi).symm.trans hheld

theorem tcpExclusive_idle (hs : (tcpTenancy s).Exclusive) (hget : s.handlers[i]? = some h)
    (htenant : ∀ p, h'.pc.tcpPort = some p → h.pc.tcpPort = some p)
    (hheldPort : h'.pc.heldPort = h.pc.heldPort) (hheldKey : h'.pc.heldKey = h.pc.heldKey)
    (hports : sh'.tcpPorts = s.shared.tcpPorts)
    (hkeys : ∀ p, sh'.holder (tcpKey p) = s.shared.holder (tcpKey p)) :
    (tcpTenancy { s with shared := sh', handlers := s.handlers.set i h' }).Exclusive := by
  have hpresent : ∀ p, h'.pc.tcpPort = some p → (tcpTenancy s).table p i := fun p hp =>
    hs.present ((System.view_of_get hget).trans (htenant p hp)) trivial
  refine tcpExclusive_handled hs hget (fun p hp => .inl (htenant p hp)) ?_ ?_ ?_ ?_
  · intro p hp hheld
    rw [hports]
    exact (hpresent p hp).1 ((System.view_of_get hget).trans (hheldPort ▸ hheld))
  · intro p hp hheld
    rw [hkeys]
    exact (hpresent p hp).2 ((System.view_of_get hget).trans (hheldKey ▸ hheld))
  · intro o p _ _ hmem
    rwa [hports]
  · intro o p _ _ hholder
    rwa [hkeys]

theorem tcpPort_of_endpoint (hreturned : h.pc.isReturned = false)
    (hendpoint : h'.pc.endpoint = h.pc.endpoint) {p : UInt16}
    (hp : h'.pc.tcpPort = some p) : h.pc.tcpPort = some p := by
  obtain ⟨-, hsome⟩ := Pc.tcpPort_eq_some.mp hp
  exact Pc.tcpPort_eq_some.mpr ⟨hreturned, hendpoint ▸ hsome⟩

theorem ne_of_tenant (hs : (tcpTenancy s).Exclusive) {o : MuxId} {p q : UInt16}
    (hget : s.handlers[i]? = some h) (hp : h.pc.tcpPort = some p) (hoi : o ≠ i)
    (ho : (tcpTenancy s).tenant o = some q) : q ≠ p := by
  rintro rfl
  exact hoi (hs.unique ho ((System.view_of_get hget).trans hp))

theorem no_tenant_of_bind (hlisten : Listening s) {p : UInt16}
    (hfree : s.shared.listeners.lookup p = none)
    (hvacated : ∀ g ∈ s.handlers, g.pc.vacating ≠ some p) (o : MuxId) :
    (tcpTenancy s).tenant o ≠ some p := by
  intro ho
  obtain ⟨g, hget, hport⟩ := System.exists_of_view ho
  rcases Pc.listening_or_vacating hport with hlistening | hvacating
  · have hlive := hlisten o p ((System.view_of_get hget).trans hlistening)
    rw [hfree] at hlive
    cases hlive
  · exact hvacated g (List.mem_of_getElem? hget) hvacating

theorem tcpExclusive_outside (hs : (tcpTenancy s).Exclusive) (hget : s.handlers[i]? = some h)
    (hnone : h'.pc.tcpPort = none) (hports : sh'.tcpPorts = s.shared.tcpPorts)
    (hkeys : ∀ o p, o ≠ i → (tcpTenancy s).tenant o = some p →
      sh'.holder (tcpKey p) = s.shared.holder (tcpKey p)) :
    (tcpTenancy { s with shared := sh', handlers := s.handlers.set i h' }).Exclusive := by
  have hoff : ∀ p, h'.pc.tcpPort ≠ some p := by simp [hnone]
  refine tcpExclusive_handled hs hget (fun p hp => absurd hp (hoff p))
    (fun p hp => absurd hp (hoff p)) (fun p hp => absurd hp (hoff p)) ?_ ?_
  · intro o p _ _ hmem
    rwa [hports]
  · intro o p hoi ho hholder
    rwa [hkeys o p hoi ho]

theorem tcpExclusive_tenant (hs : (tcpTenancy s).Exclusive) (hget : s.handlers[i]? = some h)
    {port : UInt16} (htenant : h.pc.tcpPort = some port) (htenant' : h'.pc.tcpPort = some port)
    (hport : h'.pc.heldPort = some port → (port, i) ∈ sh'.tcpPorts)
    (hkey : h'.pc.heldKey = some (tcpKey port) → sh'.holder (tcpKey port) = some i)
    (hports : ∀ o p, p ≠ port → (p, o) ∈ s.shared.tcpPorts → (p, o) ∈ sh'.tcpPorts)
    (hkeys : ∀ p, p ≠ port → sh'.holder (tcpKey p) = s.shared.holder (tcpKey p)) :
    (tcpTenancy { s with shared := sh', handlers := s.handlers.set i h' }).Exclusive := by
  have honly : ∀ p, h'.pc.tcpPort = some p → p = port := by
    intro p hp
    rw [htenant'] at hp
    exact (Option.some.inj hp).symm
  refine tcpExclusive_handled hs hget ?_ ?_ ?_ ?_ ?_
  · intro p hp
    rw [honly p hp]
    exact .inl htenant
  · intro p hp
    rw [honly p hp]
    exact hport
  · intro p hp
    rw [honly p hp]
    exact hkey
  · intro o p hoi ho hmem
    exact hports o p (ne_of_tenant hs hget htenant hoi ho) hmem
  · intro o p hoi ho hholder
    rwa [hkeys p (ne_of_tenant hs hget htenant hoi ho)]

theorem tcpExclusive_bound (hs : (tcpTenancy s).Exclusive) (hget : s.handlers[i]? = some h)
    {port : UInt16} (hpc' : h'.pc = .tcpInsertPort port)
    (hfree : ∀ o, (tcpTenancy s).tenant o ≠ some port) :
    (tcpTenancy { s with
      shared := s.shared.openListener port i
      handlers := s.handlers.set i h' }).Exclusive := by
  refine tcpExclusive_handled hs hget ?_ ?_ ?_ ?_ ?_
  · intro p hp
    rw [hpc'] at hp
    cases hp
    exact .inr fun o _ => hfree o
  · intro p _ hheld
    rw [hpc'] at hheld
    cases hheld
  · intro p _ hheld
    rw [hpc'] at hheld
    cases hheld
  · exact fun o p _ _ hmem => hmem
  · exact fun o p _ _ hholder => hholder

theorem tcpExclusive_handlerStep {input : Input} (hs : (tcpTenancy s).Exclusive)
    (hwf : s.WellFormed) (hlisten : Listening s) (hget : s.handlers[i]? = some h)
    (hstep : HandlerStep cfg i s.shared h input h' sh')
    (hguard : NoEarlyBind s (.handler i input)) :
    (tcpTenancy { s with shared := sh', handlers := s.handlers.set i h' }).Exclusive := by
  have hreturned := hstep.not_returned
  cases hstep.registry with
  | unchanged htunnels hports hendpoint hkey hport =>
      exact tcpExclusive_idle hs hget (fun p hp => tcpPort_of_endpoint hreturned hendpoint hp)
        hport hkey hports fun p => Shared.holder_congr htunnels
  | @bound port hinput hpc hpc' hfree hsh =>
      subst hsh hinput
      exact tcpExclusive_bound hs hget hpc'
        (no_tenant_of_bind hlisten hfree (hguard h hget port hpc))
  | @insertedHttp entry hpc hpc' _ hsh =>
      subst hsh
      obtain ⟨-, -, hcolon⟩ := (hwf i h hget).pending entry (by rw [hpc]; rfl)
      refine tcpExclusive_outside hs hget (by rw [hpc']; rfl) rfl ?_
      intro o p _ _
      exact Shared.holder_insertTunnel_ne _ (ne_tcpKey hcolon p).symm
  | @insertedPort port hpc hpc' hsh =>
      subst hsh
      have htenant : h.pc.tcpPort = some port := by rw [hpc]; rfl
      refine tcpExclusive_tenant hs hget htenant (by rw [hpc']; rfl) ?_ ?_ ?_ fun _ _ => rfl
      · exact fun _ => List.mem_cons_self
      · intro hheld
        rw [hpc'] at hheld
        cases hheld
      · exact fun o p _ hmem => List.mem_cons_of_mem _ hmem
  | @insertedTcp port entry hpc hpc' hmux hsh =>
      subst hsh
      have htenant : h.pc.tcpPort = some port := by rw [hpc]; rfl
      have hpresent := hs.present ((System.view_of_get hget).trans htenant) trivial
      refine tcpExclusive_tenant hs hget htenant (by rw [hpc']; rfl) ?_ ?_ ?_ ?_
      · intro _
        exact hpresent.1 ((System.view_of_get hget).trans (by rw [hpc]; rfl))
      · intro _
        rw [Shared.holder_insertTunnel_self, hmux]
      · exact fun o p _ hmem => hmem
      · intro p hne
        exact Shared.holder_insertTunnel_ne _ fun hkey => hne (tcpKey_injective hkey)
  | @removedPort port hpc hpc' hsh =>
      subst hsh
      have htenant : h.pc.tcpPort = some port := by rw [hpc]; rfl
      have hpresent := hs.present ((System.view_of_get hget).trans htenant) trivial
      refine tcpExclusive_tenant hs hget htenant (by rw [hpc']; rfl) ?_ ?_ ?_ fun _ _ => rfl
      · intro hheld
        rw [hpc'] at hheld
        cases hheld
      · intro _
        exact hpresent.2 ((System.view_of_get hget).trans (by rw [hpc]; rfl))
      · intro o p hne hmem
        exact List.mem_filter.mpr ⟨hmem, by simpa using hne⟩
  | @removedTunnel endpoint hpc hpc' hsh =>
      subst hsh
      refine tcpExclusive_outside hs hget (by rw [hpc']; rfl) rfl ?_
      intro o p hoi ho
      apply Shared.holder_removeTunnel_ne
      cases endpoint with
      | http sub => exact (ne_tcpKey ((hwf i h hget).name sub (by rw [hpc]; rfl)) p).symm
      | tcp port =>
          intro hkey
          exact ne_of_tenant hs hget (by rw [hpc]; rfl) hoi ho (tcpKey_injective hkey)

theorem tcpExclusive_step {label : Label} (hs : (tcpTenancy s).Exclusive)
    (hwf : s.WellFormed) (hlisten : Listening s) (hguard : NoEarlyBind s label)
    (hstep : s.step cfg label = some s') : (tcpTenancy s').Exclusive := by
  cases System.step_cases hstep with
  | connected client =>
      have hsame : tcpTenancy { s with handlers := s.handlers ++ [.accepted client] } =
          tcpTenancy s := by
        have htenant := fun j => System.view_connect (s := s) (f := Pc.tcpPort) client rfl j
        have hport := fun j => System.view_connect (s := s) (f := Pc.heldPort) client rfl j
        have hkey := fun j => System.view_connect (s := s) (f := Pc.heldKey) client rfl j
        simp only [tcpTenancy, htenant, hport, hkey]
      exact hsame ▸ hs
  | handled hget hhandler => exact tcpExclusive_handlerStep hs hwf hlisten hget hhandler hguard
  | evicted hlabel _ =>
      cases label <;> first | exact absurd hguard id | exact absurd hlabel id
  | quiet hquiet =>
      have hsame : tcpTenancy s' = tcpTenancy s := by
        simp [tcpTenancy, System.view, Shared.holder, hquiet.handlers, hquiet.tunnels,
          hquiet.tcpPorts]
      exact hsame ▸ hs

end Step

/-- TCP tunnel ownership: a handler in its control loop has its port in the port
set and its own entry in the tunnel map. -/
def TcpOwnership (s : System) : Prop :=
  ∀ i h port, s.handlers[i]? = some h → h.pc = .looping (.tcp port) →
    s.shared.portInUse port = true ∧
      ∃ e, s.shared.tunnels.lookup (tcpKey port) = some e ∧ e.mux = i

theorem tcpOwnership_of_exclusive {s : System} (hs : (tcpTenancy s).Exclusive) :
    TcpOwnership s := by
  intro i h port hget hpc
  have htenant : s.view Pc.tcpPort i = some port := by
    rw [System.view_of_get hget, hpc]
    rfl
  obtain ⟨hport, hkey⟩ := hs.present htenant trivial
  have hmem : (port, i) ∈ s.shared.tcpPorts := by
    apply hport
    rw [System.view_of_get hget, hpc]
    rfl
  refine ⟨List.any_eq_true.mpr ⟨_, hmem, by simp⟩, Shared.holder_eq_some.mp (hkey ?_)⟩
  rw [System.view_of_get hget, hpc]
  rfl

theorem tcpExclusive_initial (lists : Lists) :
    (tcpTenancy (System.initial lists)).Exclusive where
  unique := by
    intro o o' p ho
    simp [tcpTenancy, System.view, System.initial] at ho
  present := by
    intro o p ho
    simp [tcpTenancy, System.view, System.initial] at ho

/-- In every run without evictions in which nobody binds a port that another
handler has let go of but not yet cleaned up, TCP tunnels are owned in every
state. -/
theorem tcpOwnership_of_noEarlyBind {cfg : Config} {lists : Lists} {labels : List Label}
    {s : System} (hrun : Reached cfg NoEarlyBind lists labels s) : TcpOwnership s := by
  have hinvariant : s.WellFormed ∧ Listening s ∧ (tcpTenancy s).Exclusive := by
    refine hrun.invariant (I := fun s => s.WellFormed ∧ Listening s ∧ (tcpTenancy s).Exclusive)
      ⟨System.wellFormed_initial lists, ?_, tcpExclusive_initial lists⟩ ?_
    · intro i p hi
      simp [System.view, System.initial] at hi
    · rintro t a u ⟨hwf, hlisten, ht⟩ hguard hstep
      exact ⟨hwf.step hstep, hlisten.step hstep, tcpExclusive_step ht hwf hlisten hguard hstep⟩
  exact tcpOwnership_of_exclusive hinvariant.2.2

/-- A client closes its tunnel, and the next one takes the port when the cleanup
is done. -/
def reboundInOrder : List Label :=
  .connect documentationIp :: tcpRegistration 0 7000 ++
    [.drained (some 0), .proceed, .proceed, .proceed].map (.handler 0) ++
    .connect documentationIp :: tcpRegistration 1 7000

theorem tcpOwnership_reboundInOrder :
    ∃ s, Reached (.unlimited "relay.test") NoEarlyBind .disabled reboundInOrder s ∧
      s.shared.holder "tcp:7000" = some 1 ∧ TcpOwnership s := by
  have hexec : (execGuarded (System.step (.unlimited "relay.test")) NoEarlyBind
      (System.initial .disabled) reboundInOrder).map (fun s => s.shared.holder "tcp:7000") =
        some (some 1) := by
    decide +kernel
  obtain ⟨s, hrun, hholder⟩ := exists_run hexec
  exact ⟨s, hrun, hholder, tcpOwnership_of_noEarlyBind hrun⟩

/-- The next client takes the port as soon as the listener is dropped, and the
first handler erases the port afterwards. -/
def reboundTooEarly : List Label :=
  .connect documentationIp :: tcpRegistration 0 7000 ++
    [.drained (some 0), .proceed].map (.handler 0) ++
    .connect documentationIp :: tcpRegistration 1 7000 ++ [.handler 0 .proceed]

def Pc.loopingPort : Pc → Option UInt16
  | .looping (.tcp port) => some port
  | _ => none

theorem Pc.looping_of_loopingPort {pc : Pc} {port : UInt16} (h : pc.loopingPort = some port) :
    pc = .looping (.tcp port) := by
  unfold Pc.loopingPort at h
  split at h
  · cases h
    rfl
  · cases h

theorem not_tcpOwnership_reboundTooEarly :
    ¬ ∀ (cfg : Config) (lists : Lists) (labels : List Label) (s : System),
      (∀ label ∈ labels, ¬ label.Evicting) →
      FreeRun (System.step cfg) (System.initial lists) labels s → TcpOwnership s := by
  intro hall
  have hexec : (exec (System.step (.unlimited "relay.test")) (System.initial .disabled)
      reboundTooEarly).map (fun s => (s.shared.portInUse 7000,
        (s.handlers[1]?).map fun h => h.pc.loopingPort)) =
        some (false, some (some 7000)) := by
    decide +kernel
  obtain ⟨s, hrun, hfacts⟩ := exists_freeRun hexec
  obtain ⟨hport, hlooping⟩ := Prod.mk.inj hfacts
  obtain ⟨h, hget, hpc⟩ := Option.map_eq_some_iff.mp hlooping
  have hquiet : ∀ label ∈ reboundTooEarly, ¬ label.Evicting := by
    simp [reboundTooEarly, tcpRegistration, admission, Label.Evicting]
  have howned := hall _ _ _ s hquiet hrun 1 h 7000 hget (Pc.looping_of_loopingPort hpc)
  rw [hport] at howned
  exact Bool.noConfusion howned.1

end Seamless.Relay
