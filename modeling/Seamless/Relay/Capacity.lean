import Seamless.Relay.System

/-!
The tunnel caps. A registration is counted from the moment it passes a cap check
until it is inserted or given up; the caps hold as long as a check passes only
when there is room for these pending registrations as well.
-/

namespace Seamless.Relay

open Seamless.Library
open Seamless.Library.TransitionSystem

inductive Cap where
  | perIp (ip : String)
  | total

def Cap.counts : Cap → String → Bool
  | .perIp ip => fun clientIp => clientIp == ip
  | .total => fun _ => true

/-- The limit, or `none` when it is switched off. -/
def Cap.limit (cfg : Config) : Cap → Option Nat
  | .perIp _ => if cfg.maxTunnelsPerIp = 0 then none else some cfg.maxTunnelsPerIp.toNat
  | .total => if cfg.maxTunnels = 0 then none else some cfg.maxTunnels.toNat

def Cap.isChecking : Cap → Pc → Bool
  | .perIp _, .perIpCheck _ => true
  | .total, .globalCheck _ => true
  | _, _ => false

/-- A call that has passed the check of the cap and not yet inserted its entry. -/
def Cap.isPending : Cap → Pc → Bool
  | .perIp _, .globalCheck _ => true
  | _, .serve _ => true
  | _, .httpInsert _ => true
  | _, .tcpPick _ => true
  | _, .tcpProbe _ _ => true
  | _, .tcpBind _ => true
  | _, .tcpInsertPort _ => true
  | _, .announcing (.tcp _) => true
  | _, .tcpInsertEntry _ => true
  | _, _ => false

def Cap.entries (cap : Cap) (s : System) : Nat :=
  KeyedTable.count (fun e => cap.counts e.clientIp) s.shared.tunnels

def Cap.pending (cap : Cap) (s : System) : Nat :=
  s.handlers.countP fun h => cap.isPending h.pc && cap.counts h.clientIp

/-- Tunnel caps: no cap that is switched on is exceeded. -/
def CapsHold (cfg : Config) (s : System) : Prop :=
  ∀ cap limit, Cap.limit cfg cap = some limit → cap.entries s ≤ limit

/-- A cap check passes only when there is room for the pending registrations
too. -/
def RoomForPending (cfg : Config) (s : System) : Label → Prop
  | .handler i _ => ∀ h ∈ s.handlers[i]?, ∀ cap ∈ [Cap.perIp h.clientIp, .total],
      ∀ limit ∈ Cap.limit cfg cap, cap.isChecking h.pc = true →
        cap.entries s % 2 ^ 32 < limit → cap.entries s + cap.pending s < limit
  | _ => True

instance (cfg : Config) : ∀ (s : System) (label : Label),
    Decidable (RoomForPending cfg s label)
  | _, .handler _ _ => by
      dsimp only [RoomForPending]
      infer_instance
  | _, .connect _ | _, .sweep _ | _, .shutdown | _, .reloadAuth _ | _, .reloadBlocklist _
  | _, .reloadDenylist _ | _, .disconnectTunnel _ | _, .bulkDisconnect _
  | _, .setCustomDomain _ _ | _, .removeCustomDomain _ | _, .adminStep _ | _, .lookupDomain _
  | _, .routeDomain _ =>
      .isTrue trivial

/-- What carries the caps from one state to the next. -/
def CapsReserved (cfg : Config) (s : System) : Prop :=
  ∀ cap limit, Cap.limit cfg cap = some limit → cap.entries s + cap.pending s ≤ limit

def Cap.weight (cap : Cap) (h : Handler) : Nat :=
  if cap.isPending h.pc && cap.counts h.clientIp then 1 else 0

section Step

variable {cfg : Config} {s s' : System} {i : MuxId} {h h' : Handler} {sh sh' : Shared}
  {input : Input} (cap : Cap)

theorem Cap.pending_set (sh' : Shared) (h' : Handler) (hget : s.handlers[i]? = some h) :
    cap.pending { s with shared := sh', handlers := s.handlers.set i h' } + cap.weight h =
      cap.pending s + cap.weight h' := by
  obtain ⟨hlt, rfl⟩ := List.getElem?_eq_some_iff.mp hget
  have hle := List.boole_getElem_le_countP
    (p := fun h => cap.isPending h.pc && cap.counts h.clientIp) hlt
  simp only [pending, List.countP_set hlt, weight]
  omega

theorem Cap.weight_le_one (h : Handler) : cap.weight h ≤ 1 := by
  unfold weight
  split <;> omega

theorem Cap.weight_eq_zero (hpc : cap.isPending h.pc = false) : cap.weight h = 0 := by
  simp [weight, hpc]

theorem Cap.weight_le_of_pending (hclient : h'.client = h.client)
    (hpc : cap.isPending h.pc = true) : cap.weight h' ≤ cap.weight h := by
  have hip : h'.clientIp = h.clientIp := by simp [Handler.clientIp, hclient]
  unfold weight
  rw [hpc, hip]
  cases cap.isPending h'.pc <;> cases cap.counts h.clientIp <;> simp

theorem Cap.isPending_of_searching {pc : Pc} (hpc : pc.Searching) : cap.isPending pc = true := by
  cases cap <;> cases pc <;> first | rfl | exact absurd hpc id

theorem Cap.isPending_of_binding {pc : Pc} {port : UInt16} (hpc : pc.binding = some port) :
    cap.isPending pc = true := by
  cases cap <;> cases pc <;> first | rfl | cases hpc

theorem Cap.weight_le (hclient : h'.client = h.client)
    (hpc : cap.isPending h'.pc = false ∨ cap.isPending h.pc = true) :
    cap.weight h' ≤ cap.weight h := by
  rcases hpc with hfalse | htrue
  · rw [cap.weight_eq_zero hfalse]
    exact Nat.zero_le _
  · exact cap.weight_le_of_pending hclient htrue

/-- What a step does to a cap: entries and pending registrations together do not
grow, except when a check of that cap is passed. -/
inductive Cap.Balance (cfg : Config) (sh : Shared) (h h' : Handler) (sh' : Shared) : Prop
  | kept (hle : KeyedTable.count (fun e => cap.counts e.clientIp) sh'.tunnels + cap.weight h' ≤
      KeyedTable.count (fun e => cap.counts e.clientIp) sh.tunnels + cap.weight h)
  | passed (hchecking : cap.isChecking h.pc = true) (hcounts : cap.counts h.clientIp = true)
      (htunnels : sh'.tunnels = sh.tunnels)
      (hcheck : ∀ limit, cap.limit cfg = some limit →
        KeyedTable.count (fun e => cap.counts e.clientIp) sh.tunnels % 2 ^ 32 < limit)

theorem Cap.Balance.idle (htunnels : sh'.tunnels = sh.tunnels)
    (hclient : h'.client = h.client)
    (hpc : cap.isPending h'.pc = false ∨ cap.isPending h.pc = true) :
    cap.Balance cfg sh h h' sh' := by
  refine .kept ?_
  rw [htunnels]
  exact Nat.add_le_add_left (cap.weight_le hclient hpc) _

theorem Cap.Balance.insert {key : String} {entry : TunnelEntry}
    (hip : entry.clientIp = h.clientIp) (hpc : cap.isPending h.pc = true)
    (hpc' : cap.isPending h'.pc = false) :
    cap.Balance cfg sh h h' (sh.insertTunnel key entry) := by
  refine .kept ?_
  rw [cap.weight_eq_zero hpc', weight, hpc, Bool.true_and, ← hip]
  exact KeyedTable.count_insert_le (fun e : TunnelEntry => cap.counts e.clientIp)
    sh.tunnels key entry

theorem Cap.Balance.check (htunnels : sh'.tunnels = sh.tunnels)
    (hclient : h'.client = h.client) (hchecking : cap.isChecking h.pc = true)
    (hcheck : cap.counts h.clientIp = true → ∀ limit, cap.limit cfg = some limit →
      KeyedTable.count (fun e => cap.counts e.clientIp) sh.tunnels % 2 ^ 32 < limit) :
    cap.Balance cfg sh h h' sh' := by
  cases hcounts : cap.counts h.clientIp with
  | true => exact .passed hchecking hcounts htunnels (hcheck hcounts)
  | false =>
      refine .kept ?_
      have hip : h'.clientIp = h.clientIp := by simp [Handler.clientIp, hclient]
      rw [htunnels, weight, hip, hcounts, Bool.and_false]
      exact Nat.le_add_right _ _

theorem HandlerStep.balance (hstep : HandlerStep cfg i sh h input h' sh')
    (hwf : h.WellFormed i) : cap.Balance cfg sh h h' sh' := by
  cases hstep with
  | @advance _ pc rates hpc hpc' hcheck hkind =>
      cases pc with
      | globalCheck kind =>
          have hchecking := hkind kind rfl
          cases cap with
          | total => exact .idle .total rfl rfl (.inl rfl)
          | perIp ip =>
              refine .check (.perIp ip) rfl rfl (by rw [hchecking]; rfl) ?_
              intro hcounts limit hlimit
              obtain rfl : h.clientIp = ip := by simpa [Cap.counts] using hcounts
              simp only [Cap.limit] at hlimit
              split at hlimit
              · cases hlimit
              · rename_i hon
                cases hlimit
                exact hcheck kind hchecking hon
      | _ => first | exact absurd hpc' id | exact .idle cap rfl rfl (.inl (by cases cap <;> rfl))
  | pass hpc hcheck =>
      cases cap with
      | perIp ip => exact .idle (.perIp ip) rfl rfl (.inr (by rw [hpc]; rfl))
      | total =>
          refine .check .total rfl rfl (by rw [hpc]; rfl) ?_
          intro _ limit hlimit
          simp only [Cap.limit] at hlimit
          split at hlimit
          · cases hlimit
          · rename_i hon
            cases hlimit
            simpa [Shared.countAll, KeyedTable.size_eq_count, Cap.counts] using hcheck hon
  | inserted hpc =>
      obtain ⟨-, hip, -⟩ := hwf.pending _ (by rw [hpc]; rfl)
      exact .insert cap hip (by rw [hpc]; cases cap <;> rfl) (by cases cap <;> rfl)
  | entryInserted hpc =>
      exact .insert cap rfl (by rw [hpc]; cases cap <;> rfl) (by cases cap <;> rfl)
  | cleaned hpc =>
      refine .kept (Nat.add_le_add ?_ (cap.weight_le rfl (.inl (by cases cap <;> rfl))))
      exact KeyedTable.count_erase_le _ _ _
  | @announced _ endpoint hpc =>
      cases endpoint with
      | http sub => exact .idle cap rfl rfl (.inl (by cases cap <;> rfl))
      | tcp port => exact .idle cap rfl rfl (.inr (by rw [hpc]; cases cap <;> rfl))
  | announceFailed => exact .idle cap (by simp) rfl (.inl (by cases cap <;> rfl))
  | search hpc => exact .idle cap rfl rfl (.inr (cap.isPending_of_searching hpc))
  | bound hpc => exact .idle cap rfl rfl (.inr (cap.isPending_of_binding hpc))
  | portInserted hpc => exact .idle cap rfl rfl (.inr (by rw [hpc]; cases cap <;> rfl))
  | named hpc => exact .idle cap rfl rfl (.inr (by rw [hpc]; cases cap <;> rfl))
  | pinged hpc => exact .idle cap rfl rfl (.inl (by rw [Handler.write_pc, hpc]; cases cap <;> rfl))
  | drained hpc => exact .idle cap rfl rfl (.inl (by rw [hpc]; cases cap <;> rfl))
  | @left _ endpoint => exact .idle cap rfl rfl (.inl (by cases endpoint <;> cases cap <;> rfl))
  | @pingFailed _ endpoint =>
      exact .idle cap rfl rfl (.inl (by cases endpoint <;> cases cap <;> rfl))
  | _ => exact .idle cap rfl rfl (.inl (by cases cap <;> rfl))

theorem CapsReserved.step {label : Label} (hs : CapsReserved cfg s) (hwf : s.WellFormed)
    (hroom : RoomForPending cfg s label) (hstep : s.step cfg label = some s') :
    CapsReserved cfg s' := by
  intro cap limit hlimit
  have hold := hs cap limit hlimit
  cases System.step_cases hstep with
  | connected client =>
      have hpending : cap.pending { s with handlers := s.handlers ++ [.accepted client] } =
          cap.pending s := by
        cases cap <;> simp [Cap.pending, Handler.accepted, Cap.isPending]
      rw [hpending]
      exact hold
  | @handled i input h h' sh' hget hhandler =>
      have hset := cap.pending_set sh' h' hget
      change KeyedTable.count (fun e => cap.counts e.clientIp) sh'.tunnels + _ ≤ limit
      change KeyedTable.count (fun e => cap.counts e.clientIp) s.shared.tunnels + _ ≤ limit
        at hold
      cases hhandler.balance cap (hwf i h hget) with
      | kept hle => omega
      | passed hchecking hcounts htunnels hcheck =>
          have hmem : cap ∈ [Cap.perIp h.clientIp, .total] := by
            cases cap with
            | total => simp
            | perIp ip =>
                obtain rfl : h.clientIp = ip := by simpa [Cap.counts] using hcounts
                simp
          have hfree := hroom h hget cap hmem limit hlimit hchecking (hcheck limit hlimit)
          have hone := cap.weight_le_one h'
          change KeyedTable.count (fun e => cap.counts e.clientIp) s.shared.tunnels + _ < limit
            at hfree
          rw [htunnels]
          omega
  | @evicted _ sh' _ hevict =>
      have hle : cap.entries { s with shared := sh' } ≤ cap.entries s :=
        KeyedTable.count_le_of_sublist _ hevict.sublist
      change cap.entries { s with shared := sh' } + cap.pending s ≤ limit
      omega
  | quiet hquiet =>
      simpa [Cap.entries, Cap.pending, hquiet.tunnels, hquiet.handlers] using hold

end Step

/-- In every run in which a cap check passes only when there is room for the
pending registrations too, no cap is exceeded in any state. -/
theorem capsHold_of_roomForPending {cfg : Config} {lists : Lists} {labels : List Label}
    {s : System} (hrun : Reached cfg (RoomForPending cfg) lists labels s) :
    CapsHold cfg s := by
  have hinvariant : s.WellFormed ∧ CapsReserved cfg s := by
    refine hrun.invariant (I := fun s => s.WellFormed ∧ CapsReserved cfg s)
      ⟨System.wellFormed_initial lists, ?_⟩ ?_
    · intro cap limit _
      simp [Cap.entries, Cap.pending, System.initial, Shared.initial, KeyedTable.count,
        KeyedTable.values]
    · rintro t a u ⟨hwf, ht⟩ hguard hstep
      exact ⟨hwf.step hstep, ht.step hwf hguard hstep⟩
  intro cap limit hlimit
  have hreserved := hinvariant.2 cap limit hlimit
  omega

def oneTunnel : Config := { Config.unlimited "relay.test" with maxTunnels := 1 }

/-- Two clients, one after the other: the second is refused. -/
def oneAfterTheOther : List Label :=
  [.connect documentationIp, .connect documentationIp] ++ httpRegistration 0 "app" 0 ++
    admission 1 (.http (some "api"))

theorem capsHold_oneAfterTheOther :
    ∃ s, Reached oneTunnel (RoomForPending oneTunnel) .disabled oneAfterTheOther s ∧
      KeyedTable.size s.shared.tunnels = 1 ∧ CapsHold oneTunnel s := by
  have hexec : (execGuarded (System.step oneTunnel) (RoomForPending oneTunnel)
      (System.initial .disabled) oneAfterTheOther).map
        (fun s => KeyedTable.size s.shared.tunnels) = some 1 := by
    decide +kernel
  obtain ⟨s, hrun, hsize⟩ := exists_run hexec
  exact ⟨s, hrun, hsize, capsHold_of_roomForPending hrun⟩

/-- Two clients that both pass the cap check before either is inserted. -/
def bothAtOnce : List Label :=
  [.connect documentationIp, .connect documentationIp] ++
    admission 0 (.http (some "app")) ++ admission 1 (.http (some "api")) ++
    [.named "" 0 0, .proceed].map (.handler 0) ++ [.named "" 0 0, .proceed].map (.handler 1)

theorem not_capsHold_bothAtOnce :
    ¬ ∀ (cfg : Config) (lists : Lists) (labels : List Label) (s : System),
      FreeRun (System.step cfg) (System.initial lists) labels s → CapsHold cfg s := by
  intro hall
  have hexec : (exec (System.step oneTunnel) (System.initial .disabled) bothAtOnce).map
      (fun s => Cap.total.entries s) = some 2 := by
    decide +kernel
  obtain ⟨s, hrun, hentries⟩ := exists_freeRun hexec
  have hcap := hall _ _ _ s hrun .total 1 rfl
  omega

end Seamless.Relay
