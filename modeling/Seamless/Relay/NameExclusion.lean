import Seamless.Relay.HttpOwnership

/-!
Registration of HTTP names while nothing is evicted: of all calls that want one
name, only the call that inserted the entry announces it, and a call that finds
an entry is refused and changes nothing.
-/

namespace Seamless.Relay

open Seamless.Common
open Seamless.Library
open Seamless.Library.TransitionSystem

instance : ∀ label : Label, Decidable label.Evicting
  | .sweep _ | .shutdown => .isTrue trivial
  | .connect _ | .handler _ _ | .reloadAuth _ | .reloadBlocklist _ | .reloadDenylist _
  | .disconnectTunnel _ | .bulkDisconnect _ | .setCustomDomain _ _ | .removeCustomDomain _
  | .adminStep _ | .lookupDomain _ | .routeDomain _ => .isFalse id

/-- Neither the expiry task nor the shutdown task runs. -/
def NoEviction (_ : System) (label : Label) : Prop := ¬ label.Evicting

instance (s : System) (label : Label) : Decidable (NoEviction s label) :=
  inferInstanceAs (Decidable (¬ _))

section Unevicted

variable {cfg : Config} {s s' : System} {label : Label}

theorem swept_eq_nil_step (hs : s.shared.swept = []) (hlabel : ¬ label.Evicting)
    (hstep : s.step cfg label = some s') : s'.shared.swept = [] := by
  cases System.step_cases hstep with
  | connected client => exact hs
  | handled hget hhandler => exact hhandler.swept.trans hs
  | evicted hevicting => exact absurd hevicting hlabel
  | quiet hquiet => exact hquiet.swept.trans hs

theorem noLateCleanup_of_unswept (hs : s.shared.swept = []) : NoLateCleanup s label := by
  cases label with
  | handler i input =>
      intro h _ entry _ _ j hj
      rw [hs] at hj
      cases hj
  | _ => trivial

/-- What is known of the names in a run without evictions. -/
structure Unevicted (s : System) : Prop where
  wellFormed : s.WellFormed
  exclusive : HttpExclusive s
  unswept : s.shared.swept = []

theorem Unevicted.step (hs : Unevicted s) (hlabel : ¬ label.Evicting)
    (hstep : s.step cfg label = some s') : Unevicted s' where
  wellFormed := hs.wellFormed.step hstep
  exclusive := hs.exclusive.step hs.wellFormed (noLateCleanup_of_unswept hs.unswept) hstep
  unswept := swept_eq_nil_step hs.unswept hlabel hstep

theorem unevicted_reached {lists : Lists} {labels : List Label}
    (hrun : Reached cfg NoEviction lists labels s) : Unevicted s := by
  refine hrun.invariant ?_ fun t a u ht hguard hstep => ht.step hguard hstep
  exact ⟨System.wellFormed_initial lists, httpExclusive_initial lists, rfl⟩

theorem Unevicted.serving (hs : Unevicted s) {i : MuxId} {h : Handler} {sub : String}
    (hget : s.handlers[i]? = some h) (hpc : h.pc.servedName = some sub) :
    s.shared.holder sub = some i := by
  have hunswept : i ∉ s.shared.swept := by
    rw [hs.unswept]
    exact List.not_mem_nil
  obtain ⟨e, hk, hmux⟩ := hs.exclusive.ownership.serving i h sub hget hpc hunswept
  exact Shared.holder_eq_some.mpr ⟨e, hk, hmux⟩

end Unevicted

/-- The reply of a call that found its name taken, until and after it is written. -/
def Pc.turnedDown : Pc → Option ControlFrame
  | .httpRefusing reply => some reply
  | .returned (.error (.refused reply)) => some reply
  | _ => none

section Refused

variable {cfg : Config} {s s' : System} {i : MuxId} {h h' : Handler} {sh sh' : Shared}
  {input : Input} {reply : ControlFrame}

theorem HandlerStep.turnedDown (hstep : HandlerStep cfg i sh h input h' sh')
    (hpc : h.pc.turnedDown = some reply) :
    ∃ fault, input = .wrote fault ∧
      h' = (h.write fault reply).2.goto (.returned (.error (.refused reply))) ∧
      sh' = { sh with lock := none } := by
  have hnot := hstep.not_returned
  have hwriting : h.pc = .httpRefusing reply := by
    unfold Pc.turnedDown at hpc
    split at hpc
    · rename_i hat
      rw [hat, Option.some.inj hpc]
    · rename_i hat
      rw [hat] at hnot
      cases hnot
    · cases hpc
  cases hstep with
  | takenReply hat =>
      obtain rfl : _ = reply := by simpa [hat] using hwriting
      exact ⟨_, rfl, rfl, rfl⟩
  | _ => simp_all [Pc.Early, Pc.Searching, Pc.binding]

theorem view_turnedDown_step {label : Label} (hs : s.view Pc.turnedDown i = some reply)
    (hstep : s.step cfg label = some s') : s'.view Pc.turnedDown i = some reply := by
  cases System.step_cases hstep with
  | connected client =>
      rw [System.view_connect client rfl]
      exact hs
  | @handled j input g g' sh' hget hhandler =>
      refine view_set_of_same hget ?_ hs
      rintro rfl
      rw [System.view_of_get hget] at hs
      obtain ⟨fault, -, rfl, -⟩ := hhandler.turnedDown hs
      exact hs.symm
  | evicted => exact hs
  | quiet hquiet =>
      rw [System.view, hquiet.handlers]
      exact hs

end Refused

/-- The attempt of call `i` from `s` to `s'` found `sub` taken: the map stays as
it is, and whatever happens later the call has only its 409 reply to write. -/
structure FoundTaken (cfg : Config) (i : MuxId) (sub : String) (s s' : System) : Prop where
  unchanged : s'.shared.tunnels = s.shared.tunnels
  refused : ∀ labels t, Run (System.step cfg) NoEviction s' labels t →
    t.view Pc.turnedDown i = some (.error 409 ("subdomain '" ++ sub ++ "' already registered")) ∧
    ∀ input u, t.step cfg (.handler i input) = some u → u.shared.tunnels = t.shared.tunnels

/-- The attempt of call `i` from `s` to `s'` inserted its entry: the name was free
and is not the key of a TCP tunnel, and as long as the name stays in the map, `i`
is the only call that announces it. -/
structure InsertedAlone (cfg : Config) (i : MuxId) (entry : TunnelEntry) (s s' : System) :
    Prop where
  free : s.shared.tunnels.lookup entry.subdomain = none
  inserted : s'.shared.tunnels = s.shared.tunnels.insert entry.subdomain entry
  notTcp : ∀ port, entry.subdomain ≠ tcpKey port
  announced : ∀ labels t, Run (System.step cfg) NoEviction s' labels t →
    HoldsAlong (System.step cfg)
      (fun t => (t.shared.tunnels.lookup entry.subdomain).isSome) s' labels →
    ∀ j g fault u, t.handlers[j]? = some g → g.pc = .announcing (.http entry.subdomain) →
      t.step cfg (.handler j (.wrote fault)) = some u → j = i

section Attempt

variable {cfg : Config} {s s' : System} {i : MuxId} {h h' : Handler} {sh sh' : Shared}
  {input : Input} {entry : TunnelEntry}

theorem Handler.step_httpInsert (hpc : h.pc = .httpInsert entry)
    (hstep : h.step cfg i sh input = some (h', sh')) :
    ((sh.tunnels.lookup entry.subdomain).isSome ∧
      h' = h.goto (.httpRefusing (takenRefusal entry.subdomain)) ∧
      sh' = { sh with lock := some i }) ∨
    (sh.tunnels.lookup entry.subdomain = none ∧
      h' = h.goto (.announcing (.http entry.subdomain)) ∧
      sh' = sh.insertTunnel entry.subdomain entry) := by
  cases input with
  | proceed =>
      simp only [Handler.step, hpc] at hstep
      split at hstep
      · cases hstep
      · split at hstep
        · rename_i htaken
          cases hstep
          exact .inl ⟨htaken, rfl, rfl⟩
        · rename_i hfree
          cases hstep
          exact .inr ⟨by simpa using hfree, rfl, rfl⟩
  | _ => simp [Handler.step, hpc] at hstep

theorem System.step_httpInsert (hget : s.handlers[i]? = some h) (hpc : h.pc = .httpInsert entry)
    (hstep : s.step cfg (.handler i input) = some s') :
    ((s.shared.tunnels.lookup entry.subdomain).isSome ∧
      s' = { s with
        shared := { s.shared with lock := some i }
        handlers := s.handlers.set i
          (h.goto (.httpRefusing (takenRefusal entry.subdomain))) }) ∨
    (s.shared.tunnels.lookup entry.subdomain = none ∧
      s' = { s with
        shared := s.shared.insertTunnel entry.subdomain entry
        handlers := s.handlers.set i (h.goto (.announcing (.http entry.subdomain))) }) := by
  simp only [System.step, hget, Option.map_eq_some_iff, Prod.exists] at hstep
  obtain ⟨h', sh', hhandler, rfl⟩ := hstep
  rcases Handler.step_httpInsert hpc hhandler with ⟨htaken, rfl, rfl⟩ | ⟨hfree, rfl, rfl⟩
  · exact .inl ⟨htaken, rfl⟩
  · exact .inr ⟨hfree, rfl⟩

theorem foundTaken_of_refusing (hget : s.handlers[i]? = some h) {sub : String}
    (hpc : h.pc.turnedDown = some (takenRefusal sub)) {s₀ : System}
    (htunnels : s.shared.tunnels = s₀.shared.tunnels) : FoundTaken cfg i sub s₀ s where
  unchanged := htunnels
  refused := by
    intro labels t hrun
    have hview : t.view Pc.turnedDown i = some (takenRefusal sub) := by
      refine hrun.invariant ?_ fun t a u ht _ hstep => view_turnedDown_step ht hstep
      rw [System.view_of_get hget]
      exact hpc
    refine ⟨hview, ?_⟩
    intro input u hstep
    obtain ⟨g, g', sh', hget', hhandler, rfl⟩ := System.handler_cases hstep
    rw [System.view_of_get hget'] at hview
    obtain ⟨fault, -, -, rfl⟩ := hhandler.turnedDown hview
    rfl

theorem holder_step {label : Label} {sub : String} (hname : ∀ port, sub ≠ tcpKey port)
    (hs : s.shared.holder sub = some i) (hlabel : ¬ label.Evicting)
    (hpresent : (s'.shared.tunnels.lookup sub).isSome)
    (hstep : s.step cfg label = some s') : s'.shared.holder sub = some i := by
  have hlive : s.shared.tunnels.lookup sub ≠ none := by
    intro hnone
    rw [Shared.holder_eq_none.mpr hnone] at hs
    cases hs
  cases System.step_cases hstep with
  | connected client => exact hs
  | handled hget hhandler =>
      cases hhandler.tunnels with
      | unchanged htunnels => exact (Shared.holder_congr htunnels).trans hs
      | @insertedHttp entry _ hfree hsh =>
          subst hsh
          have hne : sub ≠ entry.subdomain := by
            rintro rfl
            exact hlive hfree
          exact (Shared.holder_insertTunnel_ne entry hne).trans hs
      | insertedTcp _ _ hsh =>
          subst hsh
          exact (Shared.holder_insertTunnel_ne _ (hname _)).trans hs
      | @removed endpoint _ hsh =>
          subst hsh
          have hne : sub ≠ endpoint.key := by
            rintro rfl
            simp [Shared.removeTunnel] at hpresent
          exact (Shared.holder_removeTunnel_ne hne).trans hs
  | evicted hevicting => exact absurd hevicting hlabel
  | quiet hquiet => exact (Shared.holder_congr hquiet.tunnels).trans hs

theorem insertedAlone_of_inserted (hs : Unevicted s) (hget : s.handlers[i]? = some h)
    (hpc : h.pc = .httpInsert entry)
    (hfree : s.shared.tunnels.lookup entry.subdomain = none)
    (hs' : Unevicted s')
    (htunnels : s'.shared.tunnels = s.shared.tunnels.insert entry.subdomain entry) :
    InsertedAlone cfg i entry s s' := by
  obtain ⟨hmux, -, hcolon⟩ := (hs.wellFormed i h hget).pending entry (by rw [hpc]; rfl)
  refine ⟨hfree, htunnels, fun port => ne_tcpKey hcolon port, ?_⟩
  intro labels t hrun hpresent j g fault u hget' hpc' _
  have hinvariant : Unevicted t ∧ t.shared.holder entry.subdomain = some i := by
    refine hrun.invariant_along (I := fun t => Unevicted t ∧
      t.shared.holder entry.subdomain = some i) hpresent ⟨hs', ?_⟩ ?_
    · rw [Shared.holder, htunnels, AList.lookup_insert, Option.map_some, hmux]
    · rintro t a u ⟨ht, hholder⟩ hguard hlive hstep
      exact ⟨ht.step hguard hstep,
        holder_step (fun port => ne_tcpKey hcolon port) hholder hguard hlive hstep⟩
  obtain ⟨ht, hholder⟩ := hinvariant
  have hserved : g.pc.servedName = some entry.subdomain := by
    rw [hpc']
    rfl
  have hserving := ht.serving hget' hserved
  exact Option.some.inj (hserving.symm.trans hholder)

/-- Every attempt to insert an HTTP name, in every run without evictions, either
finds the name taken and is refused, or inserts it alone. -/
theorem httpInsert_exclusive {lists : Lists} {labels : List Label}
    (hrun : Reached cfg NoEviction lists labels s) (hget : s.handlers[i]? = some h)
    (hpc : h.pc = .httpInsert entry) (hstep : s.step cfg (.handler i input) = some s') :
    ((s.shared.tunnels.lookup entry.subdomain).isSome →
      FoundTaken cfg i entry.subdomain s s') ∧
    (s.shared.tunnels.lookup entry.subdomain = none → InsertedAlone cfg i entry s s') := by
  have hs := unevicted_reached hrun
  have hs' : Unevicted s' := hs.step (show ¬ (Label.handler i input).Evicting from id) hstep
  have hlt : i < s.handlers.length := (List.getElem?_eq_some_iff.mp hget).1
  rcases System.step_httpInsert hget hpc hstep with ⟨htaken, rfl⟩ | ⟨hfree, rfl⟩
  · constructor
    · intro _
      exact foundTaken_of_refusing (List.getElem?_set_self hlt) rfl rfl
    · intro hfree
      rw [hfree] at htaken
      cases htaken
  · constructor
    · intro htaken
      rw [hfree] at htaken
      cases htaken
    · intro _
      exact insertedAlone_of_inserted hs hget hpc hfree hs' rfl

end Attempt

theorem Pc.eq_of_pending {pc : Pc} {entry : TunnelEntry} (h : pc.pending = some entry) :
    pc = .httpInsert entry := by
  unfold Pc.pending at h
  split at h
  · cases h
    rfl
  · cases h

/-- A second client asks for a name that is served, up to its attempt to insert. -/
def contended : List Label :=
  .connect documentationIp :: httpRegistration 0 "app" 0 ++
    [.handler 0 (.wrote none), .connect documentationIp] ++
    admission 1 (.http (some "app")) ++ [.handler 1 (.named "" 0 0)]

theorem httpInsert_contended :
    ∃ s s', Reached (.unlimited "relay.test") NoEviction .disabled contended s ∧
      s.step (.unlimited "relay.test") (.handler 1 .proceed) = some s' ∧
      FoundTaken (.unlimited "relay.test") 1 "app" s s' := by
  have hexec : (execGuarded (System.step (.unlimited "relay.test")) NoEviction
      (System.initial .disabled) contended).map (fun s =>
        (((s.handlers[1]?).bind fun h => h.pc.pending).map TunnelEntry.subdomain,
          (s.shared.tunnels.lookup "app").isSome,
          (s.step (.unlimited "relay.test") (.handler 1 .proceed)).isSome)) =
        some (some "app", true, true) := by
    decide +kernel
  obtain ⟨s, hrun, hfacts⟩ := exists_run hexec
  simp only [Prod.mk.injEq] at hfacts
  obtain ⟨hpending, htaken, henabled⟩ := hfacts
  obtain ⟨entry, hentry, hname⟩ := Option.map_eq_some_iff.mp hpending
  obtain ⟨h, hget, hpc⟩ := Option.bind_eq_some_iff.mp hentry
  obtain ⟨s', hstep⟩ := Option.isSome_iff_exists.mp henabled
  have hattempt := (httpInsert_exclusive hrun hget (Pc.eq_of_pending hpc) hstep).1
  rw [hname] at hattempt
  exact ⟨s, s', hrun, hstep, hattempt htaken⟩

end Seamless.Relay
