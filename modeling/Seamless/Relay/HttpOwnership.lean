import Seamless.Library.Tenancy
import Seamless.Relay.Registration

/-!
Names of HTTP tunnels as tenancies. A handler removes its entry by name, so the
entry of a later handler is safe only if nobody re-registers a name from which
the expiry task evicted a handler that has not finished.
-/

namespace Seamless.Relay

open Seamless.Library
open Seamless.Library.TransitionSystem

/-- A returned call whose entry was evicted no longer counts as tenant. -/
def Pc.tenantName (swept : Bool) (pc : Pc) : Option String :=
  if pc.isReturned && swept then none else pc.httpName

def httpTenancy (s : System) : Tenancy String MuxId where
  tenant i := s.view (Pc.tenantName (s.shared.swept.contains i)) i
  recorded i := i ∉ s.shared.swept
  table k i := s.shared.holder k = some i

/-- Every name has one tenant, whose entry is there until it is evicted, and
nobody else's entry stands under it. -/
structure HttpExclusive (s : System) : Prop where
  exclusive : (httpTenancy s).Exclusive
  sole : (httpTenancy s).Sole

section Step

variable {cfg : Config} {s s' : System} {i : MuxId} {h h' : Handler} {sh' : Shared}

theorem Pc.httpName_of_tenantName {swept : Bool} {pc : Pc} {k : String}
    (hname : pc.tenantName swept = some k) : pc.httpName = some k := by
  unfold Pc.tenantName at hname
  split at hname
  · cases hname
  · exact hname

theorem Pc.endpoint_of_httpName {pc : Pc} {k : String} (hname : pc.httpName = some k) :
    pc.endpoint = some (.http k) := by
  obtain ⟨endpoint, hendpoint, hsub⟩ := Option.bind_eq_some_iff.mp hname
  cases endpoint with
  | http sub =>
      cases hsub
      exact hendpoint
  | tcp port => cases hsub

theorem colon_notMem_of_tenant (hwf : s.WellFormed) {j : MuxId} {k : String}
    (htenant : (httpTenancy s).tenant j = some k) : ':' ∉ k.toList := by
  obtain ⟨g, hget, hname⟩ := System.exists_of_view htenant
  exact (hwf j g hget).name k (Pc.endpoint_of_httpName (Pc.httpName_of_tenantName hname))

theorem colon_mem_tcpKey (port : UInt16) : ':' ∈ (tcpKey port).toList := by
  simp [tcpKey]

theorem ne_tcpKey {k : String} (hk : ':' ∉ k.toList) (port : UInt16) : k ≠ tcpKey port := by
  rintro rfl
  exact hk (colon_mem_tcpKey port)

theorem httpTenancy_tenant_ne {j : MuxId} (hswept : sh'.swept = s.shared.swept) (hj : j ≠ i) :
    (httpTenancy { s with shared := sh', handlers := s.handlers.set i h' }).tenant j =
      (httpTenancy s).tenant j := by
  simp only [httpTenancy, hswept]
  exact System.view_set_ne hj

theorem httpTenancy_tenant_self (hget : s.handlers[i]? = some h)
    (hswept : sh'.swept = s.shared.swept) :
    (httpTenancy { s with shared := sh', handlers := s.handlers.set i h' }).tenant i =
      h'.pc.tenantName (s.shared.swept.contains i) := by
  simp only [httpTenancy, hswept]
  exact System.view_set_self hget

theorem HttpExclusive.idle (hs : HttpExclusive s) (hwf : s.WellFormed)
    (hget : s.handlers[i]? = some h) (hswept : sh'.swept = s.shared.swept)
    (hreturned : h.pc.isReturned = false)
    (hname : ∀ k, h'.pc.httpName = some k → h.pc.httpName = some k)
    (htable : ∀ k, ':' ∉ k.toList → sh'.holder k = s.shared.holder k) :
    HttpExclusive { s with shared := sh', handlers := s.handlers.set i h' } := by
  have hkept : ∀ k, (httpTenancy { s with
      shared := sh', handlers := s.handlers.set i h' }).tenant i = some k →
      (httpTenancy s).tenant i = some k := by
    intro k hk
    rw [httpTenancy_tenant_self hget hswept] at hk
    have hold := hname k (Pc.httpName_of_tenantName hk)
    simp [httpTenancy, System.view_of_get hget, Pc.tenantName, hreturned, hold]
  refine ⟨hs.exclusive.step i ?_ ?_ ?_ ?_ ?_, hs.sole.step i ?_ ?_ ?_⟩
  · exact fun o ho => httpTenancy_tenant_ne hswept ho
  · intro o _ hrec
    simpa [httpTenancy, hswept] using hrec
  · exact fun k hk => .inl (hkept k hk)
  · intro k hk hrec
    have hfree := colon_notMem_of_tenant hwf (hkept k hk)
    have hold := hs.exclusive.present (hkept k hk) (by simpa [httpTenancy, hswept] using hrec)
    simpa [httpTenancy, htable k hfree] using hold
  · intro o k _ ho _ htab
    simpa [httpTenancy, htable k (colon_notMem_of_tenant hwf ho)] using htab
  · exact fun o ho => httpTenancy_tenant_ne hswept ho
  · intro k o hk htab
    have hfree := colon_notMem_of_tenant hwf (hkept k hk)
    exact hs.sole i o k (hkept k hk) (by simpa [httpTenancy, htable k hfree] using htab)
  · intro o o' k _ ho htab
    simpa [httpTenancy, htable k (colon_notMem_of_tenant hwf ho)] using htab

theorem HttpExclusive.idle_tcp (hs : HttpExclusive s) (hwf : s.WellFormed)
    (hget : s.handlers[i]? = some h) (hswept : sh'.swept = s.shared.swept)
    (hreturned : h.pc.isReturned = false) {port : UInt16}
    (hendpoint : h'.pc.endpoint = some (.tcp port))
    (htable : ∀ k, ':' ∉ k.toList → sh'.holder k = s.shared.holder k) :
    HttpExclusive { s with shared := sh', handlers := s.handlers.set i h' } := by
  refine hs.idle hwf hget hswept hreturned ?_ htable
  intro k hk
  rw [Pc.endpoint_of_httpName hk] at hendpoint
  cases hendpoint

/-- Nobody registers a name while a handler evicted from it has not returned. -/
def NoLateCleanup (s : System) : Label → Prop
  | .handler i _ => ∀ h ∈ s.handlers[i]?, ∀ entry ∈ h.pc.pending,
      s.shared.holder entry.subdomain = none →
      ∀ j ∈ s.shared.swept, ∀ g ∈ s.handlers[j]?, g.pc.isReturned = false →
        g.pc.httpName ≠ some entry.subdomain
  | _ => True

instance : ∀ (s : System) (label : Label), Decidable (NoLateCleanup s label)
  | _, .handler _ _ => by
      dsimp only [NoLateCleanup]
      infer_instance
  | _, .connect _ | _, .sweep _ | _, .shutdown | _, .reloadAuth _ | _, .reloadBlocklist _
  | _, .reloadDenylist _ | _, .disconnectTunnel _ | _, .bulkDisconnect _
  | _, .setCustomDomain _ _ | _, .removeCustomDomain _ | _, .adminStep _ | _, .lookupDomain _
  | _, .routeDomain _ =>
      .isTrue trivial

theorem HttpExclusive.no_tenant (hs : HttpExclusive s) {k : String}
    (hfree : s.shared.holder k = none)
    (hlate : ∀ j ∈ s.shared.swept, ∀ g ∈ s.handlers[j]?,
      g.pc.isReturned = false → g.pc.httpName ≠ some k) (o : MuxId) :
    (httpTenancy s).tenant o ≠ some k := by
  intro ho
  -- `hlate` rules out an evicted tenant; any other has its entry under `k`.
  by_cases hswept : o ∈ s.shared.swept
  · obtain ⟨g, hget, hname⟩ := System.exists_of_view ho
    have hreturned : g.pc.isReturned = false := by
      cases hret : g.pc.isReturned with
      | false => rfl
      | true => simp [Pc.tenantName, hret, hswept] at hname
    exact hlate o hswept g hget hreturned (Pc.httpName_of_tenantName hname)
  · have hpresent : s.shared.holder k = some o := hs.exclusive.present ho hswept
    rw [hfree] at hpresent
    cases hpresent

theorem HttpExclusive.insert (hs : HttpExclusive s) {entry : TunnelEntry} {k : String}
    (hget : s.handlers[i]? = some h) (hpc' : h'.pc = .announcing (.http k))
    (hmux : entry.mux = i) (hfree : ∀ o, (httpTenancy s).tenant o ≠ some k) :
    HttpExclusive { s with
      shared := s.shared.insertTunnel k entry
      handlers := s.handlers.set i h' } := by
  have hname : h'.pc.tenantName (s.shared.swept.contains i) = some k := by
    simp [Pc.tenantName, hpc', Pc.isReturned, Pc.httpName, Endpoint.name]
  have hself : ∀ k', (httpTenancy { s with
      shared := s.shared.insertTunnel k entry
      handlers := s.handlers.set i h' }).tenant i = some k' → k' = k := by
    intro k' hk'
    rw [httpTenancy_tenant_self hget
      (show (s.shared.insertTunnel k entry).swept = _ from rfl), hname] at hk'
    exact (Option.some.inj hk').symm
  have hother : ∀ o k', (httpTenancy s).tenant o = some k' →
      (s.shared.insertTunnel k entry).holder k' = s.shared.holder k' := by
    intro o k' ho
    apply Shared.holder_insertTunnel_ne entry
    rintro rfl
    exact hfree o ho
  refine ⟨hs.exclusive.step i ?_ ?_ ?_ ?_ ?_, hs.sole.step i ?_ ?_ ?_⟩
  · exact fun o ho => httpTenancy_tenant_ne rfl ho
  · exact fun o _ hrec => hrec
  · intro k' hk'
    rw [hself k' hk']
    exact .inr fun o _ => hfree o
  · intro k' hk' _
    rw [hself k' hk', ← hmux]
    exact Shared.holder_insertTunnel_self s.shared k entry
  · intro o k' _ ho _ htab
    exact (hother o k' ho).trans htab
  · exact fun o ho => httpTenancy_tenant_ne rfl ho
  · intro k' o hk' htab
    rw [hself k' hk'] at htab
    have hholder : (s.shared.insertTunnel k entry).holder k = some o := htab
    rw [Shared.holder_insertTunnel_self, hmux] at hholder
    exact (Option.some.inj hholder).symm
  · intro o o' k' _ ho htab
    exact (hother o k' ho).symm.trans htab

theorem HttpExclusive.remove (hs : HttpExclusive s) {k : String}
    (hget : s.handlers[i]? = some h) (hpc : h.pc = .cleaning (.http k))
    (hpc' : h'.pc = .returned (.ok ())) :
    HttpExclusive { s with
      shared := s.shared.removeTunnel k
      handlers := s.handlers.set i h' } := by
  have htenant : (httpTenancy s).tenant i = some k := by
    simp [httpTenancy, System.view_of_get hget, Pc.tenantName, hpc, Pc.isReturned, Pc.httpName,
      Endpoint.name]
  have hself : ∀ k', (httpTenancy { s with
      shared := s.shared.removeTunnel k
      handlers := s.handlers.set i h' }).tenant i ≠ some k' := by
    intro k'
    rw [httpTenancy_tenant_self hget (show (s.shared.removeTunnel k).swept = _ from rfl)]
    simp [Pc.tenantName, hpc', Pc.httpName, Pc.endpoint]
  have hother : ∀ o k', o ≠ i → (httpTenancy s).tenant o = some k' →
      (s.shared.removeTunnel k).holder k' = s.shared.holder k' := by
    intro o k' hoi ho
    apply Shared.holder_removeTunnel_ne
    rintro rfl
    exact hoi (hs.exclusive.unique ho htenant)
  refine ⟨hs.exclusive.step i ?_ ?_ ?_ ?_ ?_, hs.sole.step i ?_ ?_ ?_⟩
  · exact fun o ho => httpTenancy_tenant_ne rfl ho
  · exact fun o _ hrec => hrec
  · exact fun k' hk' => absurd hk' (hself k')
  · exact fun k' hk' => absurd hk' (hself k')
  · intro o k' hoi ho _ htab
    exact (hother o k' hoi ho).trans htab
  · exact fun o ho => httpTenancy_tenant_ne rfl ho
  · exact fun k' o hk' => absurd hk' (hself k')
  · intro o o' k' hoi ho htab
    exact (hother o k' hoi ho).symm.trans htab

theorem HttpExclusive.handlerStep {input : Input} (hs : HttpExclusive s) (hwf : s.WellFormed)
    (hget : s.handlers[i]? = some h) (hstep : HandlerStep cfg i s.shared h input h' sh')
    (hlate : NoLateCleanup s (.handler i input)) :
    HttpExclusive { s with shared := sh', handlers := s.handlers.set i h' } := by
  have hreturned := hstep.not_returned
  have hswept := hstep.swept
  cases hstep.registry with
  | unchanged htunnels _ hendpoint =>
      refine hs.idle hwf hget hswept hreturned ?_ fun k _ => Shared.holder_congr htunnels
      intro k hk
      rwa [Pc.httpName, hendpoint] at hk
  | bound _ _ hpc' _ hsh =>
      subst hsh
      exact hs.idle_tcp hwf hget rfl hreturned (by rw [hpc']; rfl) fun k _ => rfl
  | @insertedHttp entry hpc hpc' hfree hsh =>
      subst hsh
      have hpending : h.pc.pending = some entry := by
        rw [hpc]
        rfl
      have hholder := Shared.holder_eq_none.mpr hfree
      obtain ⟨hmux, -, -⟩ := (hwf i h hget).pending _ hpending
      exact hs.insert hget hpc' hmux
        (hs.no_tenant hholder (hlate h hget _ hpending hholder))
  | insertedPort hpc hpc' hsh =>
      subst hsh
      exact hs.idle_tcp hwf hget rfl hreturned (by rw [hpc']; rfl) fun k _ => rfl
  | insertedTcp hpc hpc' _ hsh =>
      subst hsh
      exact hs.idle_tcp hwf hget rfl hreturned (by rw [hpc']; rfl) fun k hk =>
        Shared.holder_insertTunnel_ne _ (ne_tcpKey hk _)
  | removedPort hpc hpc' hsh =>
      subst hsh
      exact hs.idle_tcp hwf hget rfl hreturned (by rw [hpc']; rfl) fun k _ => rfl
  | @removedTunnel endpoint hpc hpc' hsh =>
      subst hsh
      cases endpoint with
      | http sub => exact hs.remove hget hpc hpc'
      | tcp port =>
          refine hs.idle hwf hget rfl hreturned ?_ fun k hk =>
            Shared.holder_removeTunnel_ne (ne_tcpKey hk _)
          intro k hk
          simp [hpc', Pc.httpName, Pc.endpoint] at hk

theorem HttpExclusive.evict (hs : HttpExclusive s) (hevict : Shared.Evicts s.shared sh') :
    HttpExclusive { s with shared := sh' } := by
  have htenant : ∀ o k, (httpTenancy { s with shared := sh' }).tenant o = some k →
      (httpTenancy s).tenant o = some k := by
    intro o k ho
    obtain ⟨g, hget, hname⟩ := System.exists_of_view ho
    replace hget : s.handlers[o]? = some g := hget
    have hold := Pc.httpName_of_tenantName hname
    by_cases hret : g.pc.isReturned = true ∧ o ∈ s.shared.swept
    · simp [Pc.tenantName, hret.1, hevict.swept o hret.2] at hname
    · change s.view _ o = some k
      rw [System.view_of_get hget, Pc.tenantName, if_neg (by simpa using hret), hold]
  refine ⟨hs.exclusive.evict htenant ?_ ?_, hs.sole.evict htenant ?_⟩
  · exact fun o hrec hswept => hrec (hevict.swept o hswept)
  · intro o k hrec htab
    obtain ⟨e, hk, rfl⟩ := Shared.holder_eq_some.mp htab
    exact Shared.holder_eq_some.mpr ⟨e, hevict.kept k e hk hrec, rfl⟩
  · intro k o htab
    obtain ⟨e, hk, rfl⟩ := Shared.holder_eq_some.mp htab
    exact Shared.holder_eq_some.mpr ⟨e, hevict.lookup hk, rfl⟩

theorem HttpExclusive.step {label : Label} (hs : HttpExclusive s) (hwf : s.WellFormed)
    (hlate : NoLateCleanup s label) (hstep : s.step cfg label = some s') :
    HttpExclusive s' := by
  cases System.step_cases hstep with
  | connected client =>
      have hsame : httpTenancy { s with handlers := s.handlers ++ [.accepted client] } =
          httpTenancy s := by
        simp only [httpTenancy, Tenancy.mk.injEq, and_true]
        funext j
        exact System.view_connect client (by simp [Pc.tenantName, Pc.httpName, Pc.endpoint]) j
      exact ⟨hsame ▸ hs.exclusive, hsame ▸ hs.sole⟩
  | handled hget hhandler => exact hs.handlerStep hwf hget hhandler hlate
  | evicted _ hevict => exact hs.evict hevict
  | quiet hquiet =>
      have hsame : httpTenancy s' = httpTenancy s := by
        simp [httpTenancy, System.view, Shared.holder, hquiet.handlers, hquiet.tunnels,
          hquiet.swept]
      exact ⟨hsame ▸ hs.exclusive, hsame ▸ hs.sole⟩

end Step

theorem httpExclusive_initial (lists : Lists) : HttpExclusive (System.initial lists) where
  exclusive :=
    { unique := by
        intro o o' k ho
        simp [httpTenancy, System.view, System.initial] at ho
      present := by
        intro o k ho
        simp [httpTenancy, System.view, System.initial] at ho }
  sole := by
    intro o o' k ho
    simp [httpTenancy, System.view, System.initial] at ho

/-- The names from the insertion of the entry to the end of the control loop; a
call that could not announce its entry never gets to its cleanup. -/
def Pc.servedName : Pc → Option String
  | .announcing (.http sub) => some sub
  | .looping (.http sub) => some sub
  | .returned (.error (.announce (.http sub) _)) => some sub
  | _ => none

def Pc.cleanedName : Pc → Option String
  | .cleaning (.http sub) => some sub
  | _ => none

theorem Pc.cleaning_of_cleanedName {pc : Pc} {sub : String} (h : pc.cleanedName = some sub) :
    pc = .cleaning (.http sub) := by
  unfold Pc.cleanedName at h
  split at h
  · cases h
    rfl
  · cases h

/-- HTTP tunnel ownership: the final removal of a handler finds no entry but its
own, and a handler that serves a name and was not evicted finds its own entry
there. -/
structure HttpOwnership (s : System) : Prop where
  cleanup : ∀ i h sub, s.handlers[i]? = some h → h.pc = .cleaning (.http sub) →
    ∀ e, s.shared.tunnels.lookup sub = some e → e.mux = i
  serving : ∀ i h sub, s.handlers[i]? = some h → h.pc.servedName = some sub →
    i ∉ s.shared.swept → ∃ e, s.shared.tunnels.lookup sub = some e ∧ e.mux = i

theorem Pc.httpName_of_servedName {pc : Pc} {sub : String} (h : pc.servedName = some sub) :
    pc.httpName = some sub := by
  unfold Pc.servedName at h
  split at h <;> cases h <;> rfl

theorem HttpExclusive.ownership {s : System} (hs : HttpExclusive s) : HttpOwnership s where
  cleanup := by
    intro i h sub hget hpc e hk
    have htenant : (httpTenancy s).tenant i = some sub := by
      simp [httpTenancy, System.view_of_get hget, Pc.tenantName, hpc, Pc.isReturned,
        Pc.httpName, Endpoint.name]
    exact hs.sole i e.mux sub htenant (Shared.holder_eq_some.mpr ⟨e, hk, rfl⟩)
  serving := by
    intro i h sub hget hserved hswept
    have htenant : (httpTenancy s).tenant i = some sub := by
      simp [httpTenancy, System.view_of_get hget, Pc.tenantName, hswept,
        Pc.httpName_of_servedName hserved]
    exact Shared.holder_eq_some.mp (hs.exclusive.present htenant hswept)

/-- In every run in which nobody registers a name while a handler evicted from
it has not returned, HTTP tunnels are owned in every state. -/
theorem httpOwnership_of_noLateCleanup {cfg : Config} {lists : Lists} {labels : List Label}
    {s : System} (hrun : Reached cfg NoLateCleanup lists labels s) : HttpOwnership s := by
  have hinvariant : s.WellFormed ∧ HttpExclusive s := by
    refine hrun.invariant (I := fun s => s.WellFormed ∧ HttpExclusive s)
      ⟨System.wellFormed_initial lists, httpExclusive_initial lists⟩ ?_
    rintro t a u ⟨hwf, ht⟩ hguard hstep
    exact ⟨hwf.step hstep, ht.step hwf hguard hstep⟩
  exact hinvariant.2.ownership

def hourlyExpiry : Config := { Config.unlimited "relay.test" with tunnelMaxAge := 3600 }

/-- One client registers, expires and is replaced; its handler runs its cleanup
before the name is taken again. -/
def replacedInOrder : List Label :=
  .connect documentationIp :: httpRegistration 0 "app" 0 ++
    [.handler 0 (.wrote none), .sweep 3600, .handler 0 .disconnected, .handler 0 .proceed,
      .connect documentationIp] ++ httpRegistration 1 "app" 3600

/-- The same, but the second client registers while the cleanup of the first handler is
still ahead. -/
def replacedTooEarly : List Label :=
  .connect documentationIp :: httpRegistration 0 "app" 0 ++
    [.handler 0 (.wrote none), .sweep 3600, .handler 0 .disconnected,
      .connect documentationIp] ++ httpRegistration 1 "app" 3600

theorem httpOwnership_replacedInOrder :
    ∃ s, Reached hourlyExpiry NoLateCleanup .disabled replacedInOrder s ∧
      s.shared.holder "app" = some 1 ∧ HttpOwnership s := by
  have hexec : (execGuarded (System.step hourlyExpiry) NoLateCleanup
      (System.initial .disabled) replacedInOrder).map (fun s => s.shared.holder "app") =
        some (some 1) := by
    decide +kernel
  obtain ⟨s, hrun, hholder⟩ := exists_run hexec
  exact ⟨s, hrun, hholder, httpOwnership_of_noLateCleanup hrun⟩

theorem not_httpOwnership_replacedTooEarly :
    ¬ ∀ (cfg : Config) (lists : Lists) (labels : List Label) (s : System),
      FreeRun (System.step cfg) (System.initial lists) labels s → HttpOwnership s := by
  intro hall
  have hexec : (exec (System.step hourlyExpiry) (System.initial .disabled)
      replacedTooEarly).map (fun s => (s.shared.holder "app",
        (s.handlers[0]?).map fun h => h.pc.cleanedName)) =
        some (some 1, some (some "app")) := by
    decide +kernel
  obtain ⟨s, hrun, hfacts⟩ := exists_freeRun hexec
  obtain ⟨hholder, hcleaning⟩ := Prod.mk.inj hfacts
  obtain ⟨e, hk, hmux⟩ := Shared.holder_eq_some.mp hholder
  obtain ⟨h, hget, hpc⟩ := Option.map_eq_some_iff.mp hcleaning
  have hcleanup := (hall _ _ _ s hrun).cleanup 0 h "app" hget (Pc.cleaning_of_cleanedName hpc) e hk
  rw [hmux] at hcleanup
  cases hcleanup

end Seamless.Relay
