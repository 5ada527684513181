import Seamless.Relay.Registration

/-!
Custom domains. The admin API maps a domain to the key of a tunnel; no handler
ever takes such a mapping back, so it is only as good as the order in which
tunnels close and the admin removes it.
-/

namespace Seamless.Relay

open Seamless.Library
open Seamless.Library.TransitionSystem

/-- Custom domains never dangle or change hands: under the key of every mapping
stands the session for which it was made. -/
def DomainsSound (s : System) : Prop :=
  ∀ d b, s.shared.customDomains.lookup d = some b →
    ∃ mux, b.holder = some mux ∧ s.shared.holder b.key = some mux

/-- Every request routed through a custom domain went to the session that the
domain was bound to. -/
def RoutedSound (s : System) : Prop := ∀ r ∈ s.routed, r.holder = some r.target

def Shared.isBound (sh : Shared) (key : String) : Bool :=
  (KeyedTable.values sh.customDomains).any fun b => b.key == key

/-- The key whose entry the call is about to remove or replace. -/
def Pc.displacedKey : Pc → Option String
  | .cleaning endpoint => some endpoint.key
  | .tcpInsertEntry port => some (tcpKey port)
  | _ => none

def Pc.insertedKey : Pc → Option String
  | .httpInsert entry => some entry.subdomain
  | .tcpInsertEntry port => some (tcpKey port)
  | _ => none

def System.boundKey (s : System) (n : Nat) : Option String :=
  match s.admins[n]? with
  | some (.bindingDomain _ key) => some key
  | _ => none

/-- No entry is removed or replaced while a domain is mapped to its key, and a
domain is mapped only to a key that has an entry. -/
def KeepsDomains (cfg : Config) (s : System) : Label → Prop
  | .handler i _ => ∀ h ∈ s.handlers[i]?, ∀ key ∈ h.pc.displacedKey,
      s.shared.isBound key = false
  | .sweep now => ∀ x ∈ s.shared.tunnels.entries, Shared.isExpired cfg now x.2 = true →
      s.shared.isBound x.1 = false
  | .shutdown => ∀ x ∈ s.shared.tunnels.entries, s.shared.isBound x.1 = false
  | .adminStep n => ∀ key ∈ s.boundKey n, s.shared.holder key ≠ none
  | _ => True

/-- Nobody inserts an entry under a key while a request that a custom domain has
led to this key is on its way to the tunnel map. -/
def NoTakeover (s : System) : Label → Prop
  | .handler i _ => ∀ h ∈ s.handlers[i]?, ∀ key ∈ h.pc.insertedKey,
      ∀ l ∈ s.lookups, l.key ≠ key
  | _ => True

instance (cfg : Config) : ∀ (s : System) (label : Label),
    Decidable (KeepsDomains cfg s label)
  | _, .handler _ _ | _, .sweep _ | _, .shutdown | _, .adminStep _ => by
      dsimp only [KeepsDomains]
      infer_instance
  | _, .connect _ | _, .reloadAuth _ | _, .reloadBlocklist _ | _, .reloadDenylist _
  | _, .disconnectTunnel _ | _, .bulkDisconnect _ | _, .setCustomDomain _ _
  | _, .removeCustomDomain _ | _, .lookupDomain _ | _, .routeDomain _ =>
      .isTrue trivial

instance : ∀ (s : System) (label : Label), Decidable (NoTakeover s label)
  | _, .handler _ _ => by
      dsimp only [NoTakeover]
      infer_instance
  | _, .connect _ | _, .sweep _ | _, .shutdown | _, .reloadAuth _ | _, .reloadBlocklist _
  | _, .reloadDenylist _ | _, .disconnectTunnel _ | _, .bulkDisconnect _
  | _, .setCustomDomain _ _ | _, .removeCustomDomain _ | _, .adminStep _ | _, .lookupDomain _
  | _, .routeDomain _ =>
      .isTrue trivial

section Step

variable {cfg : Config} {s s' : System} {i : MuxId} {h h' : Handler} {sh sh' : Shared}
  {input : Input}

theorem isBound_eq_true {key : String} : sh.isBound key = true ↔
    ∃ d b, sh.customDomains.lookup d = some b ∧ b.key = key := by
  simp only [Shared.isBound, List.any_eq_true, KeyedTable.mem_values, beq_iff_eq]
  constructor
  · rintro ⟨b, ⟨d, hd⟩, hkey⟩
    exact ⟨d, b, hd, hkey⟩
  · rintro ⟨d, b, hd, hkey⟩
    exact ⟨b, ⟨d, hd⟩, hkey⟩

theorem key_ne_of_isBound {key d : String} {b : Binding} (hbound : sh.isBound key = false)
    (hd : sh.customDomains.lookup d = some b) : b.key ≠ key := by
  intro hkey
  have htrue := isBound_eq_true.mpr ⟨d, b, hd, hkey⟩
  rw [hbound] at htrue
  cases htrue

theorem domainsSound_iff_of_holder (hs : DomainsSound s)
    (hdomains : s'.shared.customDomains = s.shared.customDomains) :
    DomainsSound s' ↔ ∀ d b, s.shared.customDomains.lookup d = some b →
      s'.shared.holder b.key = s.shared.holder b.key := by
  constructor
  · intro hs' d b hd
    obtain ⟨mux, hholder, hkey⟩ := hs d b hd
    obtain ⟨mux', hholder', hkey'⟩ := hs' d b (hdomains ▸ hd)
    rw [hkey, hkey', ← hholder, ← hholder']
  · intro hsame d b hd
    rw [hdomains] at hd
    obtain ⟨mux, hholder, hkey⟩ := hs d b hd
    exact ⟨mux, hholder, (hsame d b hd).trans hkey⟩

theorem HandlerStep.of_cleaning {endpoint : Endpoint}
    (hstep : HandlerStep cfg i sh h input h' sh') (hpc : h.pc = .cleaning endpoint) :
    sh' = sh.removeTunnel endpoint.key := by
  cases hstep <;> simp_all [Pc.Early, Pc.Searching, Pc.binding]

theorem HandlerStep.of_tcpInsertEntry {port : UInt16}
    (hstep : HandlerStep cfg i sh h input h' sh') (hpc : h.pc = .tcpInsertEntry port) :
    ∃ entry, entry.mux = i ∧ sh' = sh.insertTunnel (tcpKey port) entry := by
  cases hstep <;> simp_all [Pc.Early, Pc.Searching, Pc.binding]
  exact ⟨_, rfl, rfl⟩

theorem Pc.displacedKey_cases {pc : Pc} {key : String} (hkey : pc.displacedKey = some key) :
    (∃ endpoint : Endpoint, pc = .cleaning endpoint ∧ endpoint.key = key) ∨
      ∃ port, pc = .tcpInsertEntry port ∧ tcpKey port = key := by
  unfold Pc.displacedKey at hkey
  split at hkey
  · cases hkey
    exact .inl ⟨_, rfl, rfl⟩
  · cases hkey
    exact .inr ⟨_, rfl, rfl⟩
  · cases hkey

theorem HandlerStep.holder_eq (hstep : HandlerStep cfg i sh h input h' sh') {key : String}
    (htaken : sh.holder key ≠ none) (hkey : h.pc.displacedKey ≠ some key) :
    sh'.holder key = sh.holder key := by
  cases hstep.tunnels with
  | unchanged htunnels => exact Shared.holder_congr htunnels
  | insertedHttp _ hfree hsh =>
      cases hsh
      apply Shared.holder_insertTunnel_ne _
      rintro rfl
      exact htaken (Shared.holder_eq_none.mpr hfree)
  | insertedTcp hpc _ hsh =>
      cases hsh
      apply Shared.holder_insertTunnel_ne _
      rintro rfl
      exact hkey (by rw [hpc]; rfl)
  | removed hpc hsh =>
      cases hsh
      apply Shared.holder_removeTunnel_ne
      rintro rfl
      exact hkey (by rw [hpc]; rfl)

theorem domainsSound_handled_iff (howned : Owned s) (hs : DomainsSound s)
    (hget : s.handlers[i]? = some h) (hstep : HandlerStep cfg i s.shared h input h' sh') :
    DomainsSound { s with shared := sh', handlers := s.handlers.set i h' } ↔
      ∀ key ∈ h.pc.displacedKey, s.shared.isBound key = false := by
  rw [domainsSound_iff_of_holder hs hstep.customDomains]
  constructor
  · intro hsame key hkey
    by_contra hbound
    obtain ⟨d, b, hd, hb⟩ := isBound_eq_true.mp (by simpa using hbound)
    obtain ⟨mux, -, hholder⟩ := hs d b hd
    have hafter := hsame d b hd
    rw [hholder, hb] at hafter
    rw [hb] at hholder
    rcases Pc.displacedKey_cases hkey with ⟨endpoint, hpc, rfl⟩ | ⟨port, hpc, rfl⟩
    · obtain rfl := hstep.of_cleaning hpc
      rw [Shared.holder_removeTunnel_self] at hafter
      cases hafter
    · obtain ⟨entry, hmux, rfl⟩ := hstep.of_tcpInsertEntry hpc
      rw [Shared.holder_insertTunnel_self, hmux] at hafter
      cases hafter
      obtain ⟨e, hlookup, hown⟩ := Shared.holder_eq_some.mp hholder
      exact howned.mux_ne hget (by rw [hpc]; rfl) hlookup hown
  · intro hguard d b hd
    obtain ⟨mux, -, hholder⟩ := hs d b hd
    apply hstep.holder_eq (by rw [hholder]; simp)
    intro hkey
    exact key_ne_of_isBound (hguard b.key hkey) hd rfl

theorem domainsSound_evict_iff (hs : DomainsSound s) {p : TunnelEntry → Bool}
    (hdomains : sh'.customDomains = s.shared.customDomains)
    (hlookup : ∀ k, sh'.tunnels.lookup k = (s.shared.tunnels.lookup k).filter fun e => !p e) :
    DomainsSound { s with shared := sh' } ↔
      ∀ x ∈ s.shared.tunnels.entries, p x.2 = true → s.shared.isBound x.1 = false := by
  rw [domainsSound_iff_of_holder hs hdomains]
  constructor
  · intro hsame x hx hp
    by_contra hbound
    obtain ⟨d, b, hd, hb⟩ := isBound_eq_true.mp (by simpa using hbound)
    have hentry := Shared.lookup_of_mem_entries hx
    have hafter := hsame d b hd
    rw [hb] at hafter
    simp only [Shared.holder, hlookup] at hafter
    rw [hentry, Option.filter_some_neg (by simp [hp])] at hafter
    cases hafter
  · intro hguard d b hd
    obtain ⟨mux, -, hholder⟩ := hs d b hd
    obtain ⟨e, hentry, -⟩ := Shared.holder_eq_some.mp hholder
    have hkeep : p e = false := by
      by_contra hp
      have hbound := hguard ⟨b.key, e⟩ (AList.mem_lookup_iff.mp hentry) (by simpa using hp)
      exact key_ne_of_isBound hbound hd rfl
    simp only [Shared.holder, hlookup]
    rw [hentry, Option.filter_some_pos (by simp [hkeep])]

theorem domainsSound_insert_iff (hs : DomainsSound s) {d key : String} {admins : List AdminTask} :
    DomainsSound { s with
      shared := { s.shared with
        customDomains := s.shared.customDomains.insert d ⟨key, s.shared.holder key⟩ }
      admins := admins } ↔ s.shared.holder key ≠ none := by
  constructor
  · intro hs' hnone
    obtain ⟨mux, hholder, -⟩ := hs' d ⟨key, s.shared.holder key⟩ (AList.lookup_insert _)
    simp [hnone] at hholder
  · intro hsome d' b hd'
    by_cases hdd : d' = d
    · subst hdd
      simp only [AList.lookup_insert, Option.some.injEq] at hd'
      subst hd'
      obtain ⟨mux, hmux⟩ := Option.ne_none_iff_exists'.mp hsome
      exact ⟨mux, hmux, hmux⟩
    · simp only [AList.lookup_insert_ne hdd] at hd'
      exact hs d' b hd'

theorem domainsSound_adminStep_iff (hs : DomainsSound s) {n : Nat}
    (hstep : s.adminStep n = some s') :
    DomainsSound s' ↔ ∀ key ∈ s.boundKey n, s.shared.holder key ≠ none := by
  unfold System.adminStep at hstep
  split at hstep
  · rename_i hn
    cases hstep
    exact iff_of_true hs (by simp [System.boundKey, hn])
  · rename_i hn
    cases hstep
    exact iff_of_true hs (by simp [System.boundKey, hn])
  · rename_i d key hn
    cases hstep
    rw [domainsSound_insert_iff hs]
    simp [System.boundKey, hn]
  · cases hstep

theorem domainsSound_remove (hs : DomainsSound s) (key : String) :
    DomainsSound { s with shared := { s.shared with
      customDomains := KeyedTable.filter (fun _ b => b.key != key)
        s.shared.customDomains } } := by
  intro d b hd
  simp only [KeyedTable.lookup_filter, Option.filter_eq_some_iff] at hd
  exact hs d b hd.1

theorem keepsDomains_of_aside {label : Label} (hlabel : label.Aside) :
    KeepsDomains cfg s label := by
  cases label with
  | handler | sweep | shutdown | adminStep => exact hlabel.elim
  | _ => trivial

/-- Exactly the steps that `KeepsDomains` names break a sound mapping. -/
theorem domainsSound_step_iff {label : Label} (howned : Owned s) (hs : DomainsSound s)
    (hstep : s.step cfg label = some s') : DomainsSound s' ↔ KeepsDomains cfg s label := by
  by_cases haside : label.Aside
  · obtain ⟨lists, admins, rfl⟩ := System.step_of_aside haside hstep
    exact iff_of_true hs (keepsDomains_of_aside haside)
  cases label with
  | connect client =>
      cases hstep
      exact iff_of_true hs trivial
  | handler i input =>
      obtain ⟨h, h', sh', hget, hhandler, rfl⟩ := System.handler_cases hstep
      rw [domainsSound_handled_iff howned hs hget hhandler]
      simp [KeepsDomains, hget]
  | sweep now =>
      obtain rfl := System.sweep_cases hstep
      exact domainsSound_evict_iff hs (Shared.evicts_sweep cfg now s.shared).customDomains
        (Shared.lookup_sweep cfg now s.shared)
  | shutdown =>
      obtain rfl := System.shutdown_cases hstep
      have hcleared : ∀ k, s.shared.shutdown.tunnels.lookup k =
          (s.shared.tunnels.lookup k).filter fun _ => !true := by
        simp [Shared.shutdown]
      rw [domainsSound_evict_iff (p := fun _ => true) hs
        (show s.shared.shutdown.customDomains = _ from rfl) hcleared]
      simp [KeepsDomains]
  | removeCustomDomain tunnelId =>
      cases hstep
      exact iff_of_true (domainsSound_remove hs tunnelId) trivial
  | adminStep n => exact domainsSound_adminStep_iff hs hstep
  | lookupDomain host =>
      simp only [System.step] at hstep
      split at hstep <;> cases hstep <;> exact iff_of_true hs trivial
  | routeDomain n =>
      obtain ⟨lookups, routed, rfl⟩ := System.routeDomain_frame (System.routeDomain_cases hstep)
      exact iff_of_true hs trivial
  | _ => exact absurd trivial haside

/-- Under the key of a request on its way to the tunnel map stands the session
for which it was resolved, or nothing. -/
def LookupsSound (s : System) : Prop :=
  ∀ l ∈ s.lookups, l.holder ≠ none ∧
    (s.shared.holder l.key = l.holder ∨ s.shared.holder l.key = none)

theorem HandlerStep.holder_cases (hstep : HandlerStep cfg i sh h input h' sh') {key : String}
    (hkey : h.pc.insertedKey ≠ some key) :
    sh'.holder key = sh.holder key ∨ sh'.holder key = none := by
  cases hstep.tunnels with
  | unchanged htunnels => exact .inl (Shared.holder_congr htunnels)
  | insertedHttp hpc _ hsh =>
      cases hsh
      refine .inl (Shared.holder_insertTunnel_ne _ ?_)
      rintro rfl
      exact hkey (by rw [hpc]; rfl)
  | insertedTcp hpc _ hsh =>
      cases hsh
      refine .inl (Shared.holder_insertTunnel_ne _ ?_)
      rintro rfl
      exact hkey (by rw [hpc]; rfl)
  | @removed endpoint _ hsh =>
      cases hsh
      by_cases hsame : key = endpoint.key
      · subst hsame
        exact .inr (Shared.holder_removeTunnel_self _ _)
      · exact .inl (Shared.holder_removeTunnel_ne hsame)

theorem Shared.Evicts.holder_cases (hevict : Shared.Evicts sh sh') (key : String) :
    sh'.holder key = sh.holder key ∨ sh'.holder key = none := by
  cases hk : sh'.tunnels.lookup key with
  | none => exact .inr (Shared.holder_eq_none.mpr hk)
  | some e =>
      left
      rw [Shared.holder_eq_some.mpr ⟨e, hk, rfl⟩,
        Shared.holder_eq_some.mpr ⟨e, hevict.lookup hk, rfl⟩]

theorem LookupsSound.of_holder (hs : LookupsSound s)
    (hlookups : ∀ l ∈ s'.lookups, l ∈ s.lookups)
    (hholder : ∀ l ∈ s.lookups, s'.shared.holder l.key = s.shared.holder l.key ∨
      s'.shared.holder l.key = none) : LookupsSound s' := by
  intro l hl
  obtain ⟨hsome, hkey⟩ := hs l (hlookups l hl)
  refine ⟨hsome, ?_⟩
  rcases hholder l (hlookups l hl) with hsame | hnone
  · rw [hsame]
    exact hkey
  · exact .inr hnone

structure RoutingSound (s : System) : Prop where
  lookups : LookupsSound s
  routed : RoutedSound s

theorem RoutingSound.of_shared (hs : RoutingSound s) (hlookups : s'.lookups = s.lookups)
    (hrouted : s'.routed = s.routed) (htunnels : s'.shared.tunnels = s.shared.tunnels) :
    RoutingSound s' where
  lookups := hs.lookups.of_holder (fun l hl => hlookups ▸ hl)
    fun _ _ => .inl (Shared.holder_congr htunnels)
  routed := by
    intro r hr
    exact hs.routed r (hrouted ▸ hr)

theorem RoutingSound.of_evicts (hs : RoutingSound s) (hevict : Shared.Evicts s.shared sh') :
    RoutingSound { s with shared := sh' } where
  lookups := hs.lookups.of_holder (fun _ hl => hl) fun l _ => hevict.holder_cases l.key
  routed := hs.routed

theorem RoutingSound.lookupDomain (hs : RoutingSound s) (hdomains : DomainsSound s)
    {host : String} (hstep : s.step cfg (.lookupDomain host) = some s') : RoutingSound s' := by
  simp only [System.step] at hstep
  split at hstep
  · rename_i b hb
    cases hstep
    refine ⟨?_, hs.routed⟩
    intro l hl
    rcases List.mem_cons.mp hl with rfl | hold
    · obtain ⟨mux, hholder, hkey⟩ := hdomains host b hb
      exact ⟨by simp [hholder], .inl (hkey.trans hholder.symm)⟩
    · exact hs.lookups l hold
  · cases hstep
    exact hs

theorem RoutingSound.routeDomain (hs : RoutingSound s) {n : Nat}
    (hstep : s.routeDomain n = some s') : RoutingSound s' := by
  unfold System.routeDomain at hstep
  split at hstep
  · rename_i l hn
    dsimp only at hstep
    obtain ⟨hsome, hkey⟩ := hs.lookups l (List.mem_of_getElem? hn)
    have hrest : ∀ l ∈ s.lookups.eraseIdx n, l ∈ s.lookups := fun _ hl =>
      (List.eraseIdx_sublist _ _).subset hl
    split at hstep
    · rename_i entry hentry
      cases hstep
      refine ⟨hs.lookups.of_holder hrest fun _ _ => .inl rfl, ?_⟩
      intro r hr
      rcases List.mem_cons.mp hr with rfl | hold
      · have hholder := Shared.holder_eq_some.mpr ⟨entry, hentry, rfl⟩
        rcases hkey with hsame | hnone
        · exact hsame.symm.trans hholder
        · rw [hnone] at hholder
          cases hholder
      · exact hs.routed r hold
    · cases hstep
      exact ⟨hs.lookups.of_holder hrest fun _ _ => .inl rfl, hs.routed⟩
  · cases hstep

theorem RoutingSound.step {label : Label} (hs : RoutingSound s) (hdomains : DomainsSound s)
    (hguard : NoTakeover s label) (hstep : s.step cfg label = some s') : RoutingSound s' := by
  by_cases haside : label.Aside
  · obtain ⟨lists, admins, rfl⟩ := System.step_of_aside haside hstep
    exact hs.of_shared rfl rfl rfl
  cases label with
  | connect client =>
      cases hstep
      exact hs.of_shared rfl rfl rfl
  | handler i input =>
      obtain ⟨h, h', sh', hget, hhandler, rfl⟩ := System.handler_cases hstep
      refine ⟨hs.lookups.of_holder (fun _ hl => hl) fun l hl => ?_, hs.routed⟩
      refine hhandler.holder_cases fun hkey => ?_
      exact hguard h hget l.key hkey l hl rfl
  | sweep now =>
      obtain rfl := System.sweep_cases hstep
      exact hs.of_evicts (Shared.evicts_sweep cfg now s.shared)
  | shutdown =>
      obtain rfl := System.shutdown_cases hstep
      exact hs.of_evicts (Shared.evicts_shutdown s.shared)
  | removeCustomDomain tunnelId =>
      cases hstep
      exact hs.of_shared rfl rfl rfl
  | adminStep n =>
      simp only [System.step, System.adminStep] at hstep
      split at hstep <;> first | cases hstep; exact hs.of_shared rfl rfl rfl | cases hstep
  | lookupDomain host => exact hs.lookupDomain hdomains hstep
  | routeDomain n => exact hs.routeDomain (System.routeDomain_cases hstep)
  | _ => exact absurd trivial haside

end Step

theorem domainsSound_initial (lists : Lists) : DomainsSound (System.initial lists) := by
  intro d b hd
  simp [System.initial, Shared.initial] at hd

/-- Along a run of the relay custom domains are sound if and only if no entry is
removed or replaced while a domain is mapped to its key and every domain is
mapped to a key that has an entry; and then, if nobody takes a key over while a
request is on its way to it, every request goes to the session that its domain
was bound to. -/
theorem customDomains_iff_keepsDomains {cfg : Config} {lists : Lists} {labels : List Label}
    {s : System} (hrun : FreeRun (System.step cfg) (System.initial lists) labels s) :
    (HoldsAlong (System.step cfg) DomainsSound (System.initial lists) labels ↔
      Reached cfg (KeepsDomains cfg) lists labels s) ∧
    (Reached cfg (fun s label => KeepsDomains cfg s label ∧ NoTakeover s label) lists labels s →
      DomainsSound s ∧ RoutedSound s) := by
  constructor
  · refine hrun.holdsAlong_iff (I := fun s => s.WellFormed ∧ Owned s)
      ⟨System.wellFormed_initial lists, owned_initial lists⟩ ?_ (domainsSound_initial lists) ?_
    · rintro t a u ⟨hwf, ht⟩ hstep
      exact ⟨hwf.step hstep, ht.step hwf hstep⟩
    · rintro t a u ⟨-, ht⟩ hdomains hstep
      exact domainsSound_step_iff ht hdomains hstep
  · intro hguarded
    have hinvariant : (s.WellFormed ∧ Owned s) ∧ DomainsSound s ∧ RoutingSound s := by
      refine hguarded.invariant
        (I := fun s => (s.WellFormed ∧ Owned s) ∧ DomainsSound s ∧ RoutingSound s)
        ⟨⟨System.wellFormed_initial lists, owned_initial lists⟩, domainsSound_initial lists,
          ⟨?_, ?_⟩⟩ ?_
      · intro l hl
        cases hl
      · intro r hr
        cases hr
      · rintro t a u ⟨⟨hwf, ht⟩, hdomains, hrouting⟩ ⟨hkeeps, htakeover⟩ hstep
        exact ⟨⟨hwf.step hstep, ht.step hwf hstep⟩,
          (domainsSound_step_iff ht hdomains hstep).mpr hkeeps,
          hrouting.step hdomains htakeover hstep⟩
    exact ⟨hinvariant.2.1, hinvariant.2.2.routed⟩

/-- A domain is bound, used and released again before its tunnel closes. -/
def releasedInOrder : List Label :=
  .connect documentationIp :: httpRegistration 0 "app" 0 ++
    [.handler 0 (.wrote none), .setCustomDomain "app" "shop.example", .adminStep 0,
      .lookupDomain "shop.example", .routeDomain 0, .removeCustomDomain "app",
      .handler 0 (.drained (some 0)), .handler 0 .proceed]

theorem customDomains_releasedInOrder :
    ∃ s, Reached (.unlimited "relay.test")
        (fun s label => KeepsDomains (.unlimited "relay.test") s label ∧ NoTakeover s label)
        .disabled releasedInOrder s ∧
      s.routed = [⟨"shop.example", some 0, 0⟩] ∧ DomainsSound s ∧ RoutedSound s := by
  have hexec : (execGuarded (System.step (.unlimited "relay.test"))
      (fun s label => KeepsDomains (.unlimited "relay.test") s label ∧ NoTakeover s label)
      (System.initial .disabled) releasedInOrder).map System.routed =
        some [⟨"shop.example", some 0, 0⟩] := by
    decide +kernel
  obtain ⟨s, hrun, hrouted⟩ := exists_run hexec
  exact ⟨s, hrun, hrouted, (customDomains_iff_keepsDomains hrun.free).2 hrun⟩

/-- A tunnel closes with a domain still bound to it; another client takes the
name, and with it the domain. -/
def domainInherited : List Label :=
  .connect documentationIp :: httpRegistration 0 "app" 0 ++
    [.handler 0 (.wrote none), .setCustomDomain "app" "shop.example", .adminStep 0,
      .handler 0 (.drained (some 0)), .handler 0 .proceed, .connect documentationIp] ++
    httpRegistration 1 "app" 0 ++ [.lookupDomain "shop.example", .routeDomain 0]

theorem not_customDomains_domainInherited :
    ¬ ∀ (cfg : Config) (lists : Lists) (labels : List Label) (s : System),
      FreeRun (System.step cfg) (System.initial lists) labels s →
        DomainsSound s ∧ RoutedSound s := by
  intro hall
  have hexec : (exec (System.step (.unlimited "relay.test")) (System.initial .disabled)
      domainInherited).map System.routed = some [⟨"shop.example", some 0, 1⟩] := by
    decide +kernel
  obtain ⟨s, hrun, hrouted⟩ := exists_freeRun hexec
  have hsound := (hall _ _ _ s hrun).2 ⟨"shop.example", some 0, 1⟩ (by simp [hrouted])
  cases hsound

end Seamless.Relay
