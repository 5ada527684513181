import Seamless.Relay.ControlStream

/-!
What stands in the way of a registration. A call is turned down at a check because of
entries of `tunnels`, and it would be so without any of the other entries too.
-/

namespace Seamless.Relay

open Seamless.Common
open Seamless.Library

/-- The entries of `tunnels` that stand in the way of a call at one of its checks. -/
def Handler.obstacles (cfg : Config) (sh : Shared) (h : Handler) : List TunnelEntry :=
  match h.pc with
  | .perIpCheck _ =>
      if cfg.maxTunnelsPerIp ≠ 0 ∧ cfg.maxTunnelsPerIp.toNat ≤ sh.countForIp h.clientIp then
        (KeyedTable.values sh.tunnels).filter fun entry => entry.clientIp == h.clientIp
      else []
  | .globalCheck _ =>
      if cfg.maxTunnels ≠ 0 ∧ cfg.maxTunnels.toNat ≤ sh.countAll then
        KeyedTable.values sh.tunnels
      else []
  | .httpInsert entry => (sh.tunnels.lookup entry.subdomain).toList
  | _ => []

/-- The check at which call `i` stands turns it down. -/
def Handler.turnedDown (cfg : Config) (i : MuxId) (sh : Shared) (h : Handler) : Bool :=
  match h.step cfg i sh .proceed with
  | some (h', _) => h'.pc.refusal.isSome
  | none => false

/-- The registry as it would be without the entries of these sessions. -/
def Shared.without (own : MuxId → Bool) (sh : Shared) : Shared :=
  { sh with tunnels := KeyedTable.filter (fun _ entry => !own entry.mux) sh.tunnels }

section Blame

variable {cfg : Config} {i : MuxId} {sh : Shared} {h : Handler} {own : MuxId → Bool}

theorem Shared.exists_of_countAll (hcount : 0 < sh.countAll) :
    KeyedTable.values sh.tunnels ≠ [] := by
  rw [countAll, KeyedTable.size_eq_count] at hcount
  simpa using KeyedTable.filter_values_ne_nil hcount

theorem capped_pos {limit : UInt32} {n : Nat} (h : limit ≠ 0 ∧ limit.toNat ≤ n) : 0 < n := by
  have hlimit : limit.toNat ≠ 0 := by
    intro hzero
    exact h.1 (UInt32.toNat_inj.mp hzero)
  omega

theorem Handler.turnedDown_perIpCheck {kind : TunnelKind} (hpc : h.pc = .perIpCheck kind) :
    h.turnedDown cfg i sh = true ↔ sh.lock = none ∧ h.obstacles cfg sh ≠ [] := by
  by_cases hlimit : cfg.maxTunnelsPerIp = 0
  · simp [turnedDown, Handler.step, obstacles, hpc, hlimit, Pc.refusal]
  · rcases hlock : sh.lock with _ | j
    · by_cases hfull : cfg.maxTunnelsPerIp.toNat ≤ sh.countForIp h.clientIp
      · have hsome := KeyedTable.filter_values_ne_nil (capped_pos ⟨hlimit, hfull⟩)
        rw [obstacles, hpc]
        simp only [if_pos (And.intro hlimit hfull)]
        simp [turnedDown, Handler.step, hpc, hlimit, hlock, afterPerIpCheck, hfull, Pc.refusal,
          hsome]
      · simp [turnedDown, Handler.step, obstacles, hpc, hlimit, hlock, afterPerIpCheck, hfull,
          Pc.refusal]
    · simp [turnedDown, Handler.step, hpc, hlimit, hlock]

theorem Handler.turnedDown_globalCheck {kind : TunnelKind} (hpc : h.pc = .globalCheck kind) :
    h.turnedDown cfg i sh = true ↔ sh.lock = none ∧ h.obstacles cfg sh ≠ [] := by
  by_cases hlimit : cfg.maxTunnels = 0
  · simp [turnedDown, Handler.step, obstacles, hpc, hlimit, Pc.refusal]
  · rcases hlock : sh.lock with _ | j
    · by_cases hfull : cfg.maxTunnels.toNat ≤ sh.countAll
      · have hsome := Shared.exists_of_countAll (capped_pos ⟨hlimit, hfull⟩)
        simp [turnedDown, Handler.step, obstacles, hpc, hlimit, hlock, afterGlobalCheck, hfull,
          Pc.refusal, hsome]
      · simp [turnedDown, Handler.step, obstacles, hpc, hlimit, hlock, afterGlobalCheck, hfull,
          Pc.refusal]
    · simp [turnedDown, Handler.step, hpc, hlimit, hlock]

theorem Handler.turnedDown_httpInsert {entry : TunnelEntry} (hpc : h.pc = .httpInsert entry) :
    h.turnedDown cfg i sh = true ↔ sh.lock = none ∧ h.obstacles cfg sh ≠ [] := by
  rcases hlock : sh.lock with _ | j
  · cases htaken : sh.tunnels.lookup entry.subdomain <;>
      simp [turnedDown, Handler.step, obstacles, hpc, hlock, htaken, Pc.refusal]
  · simp [turnedDown, Handler.step, hpc, hlock]

theorem Handler.turnedDown_iff :
    h.turnedDown cfg i sh = true ↔ sh.lock = none ∧ h.obstacles cfg sh ≠ [] := by
  cases hpc : h.pc with
  | perIpCheck kind => exact turnedDown_perIpCheck hpc
  | globalCheck kind => exact turnedDown_globalCheck hpc
  | httpInsert entry => exact turnedDown_httpInsert hpc
  | start =>
      rcases hlist : sh.lists.denylist with _ | entries
      · simp [turnedDown, Handler.step, obstacles, hpc, hlist, Pc.refusal]
      · by_cases hdenied : isDenied entries h.client <;>
          simp [turnedDown, Handler.step, obstacles, hpc, hlist, hdenied, Pc.refusal]
  | serve kind =>
      cases kind with
      | http sub => simp [turnedDown, Handler.step, obstacles, hpc]
      | tcp port =>
          by_cases hport : port = 0 <;>
            simp [turnedDown, Handler.step, obstacles, hpc, hport, Pc.refusal]
  | tcpPick tries => cases tries <;> simp [turnedDown, Handler.step, obstacles, hpc, Pc.refusal]
  | cleaning endpoint =>
      by_cases hlock : sh.lock.isSome <;>
        simp [turnedDown, Handler.step, obstacles, hpc, hlock, Pc.refusal]
  | _ => simp [turnedDown, Handler.step, obstacles, hpc, Pc.refusal]

theorem Shared.countForIp_without {ip : String}
    (h : ∀ entry ∈ (KeyedTable.values sh.tunnels).filter fun entry => entry.clientIp == ip,
      own entry.mux = false) : (sh.without own).countForIp ip = sh.countForIp ip := by
  rw [countForIp, countForIp, without, KeyedTable.count_filter_of_forall]
  intro entry hentry hip
  simp [h entry (List.mem_filter.mpr ⟨hentry, hip⟩)]

theorem Shared.countAll_without (h : ∀ entry ∈ KeyedTable.values sh.tunnels,
    own entry.mux = false) : (sh.without own).countAll = sh.countAll := by
  rw [countAll, countAll, without, KeyedTable.size_eq_count, KeyedTable.size_eq_count,
    KeyedTable.count_filter_of_forall]
  intro entry hentry _
  simp [h entry hentry]

theorem Handler.obstacles_without (hsome : h.obstacles cfg sh ≠ [])
    (hforeign : ∀ entry ∈ h.obstacles cfg sh, own entry.mux = false) :
    h.obstacles cfg (sh.without own) ≠ [] := by
  cases hpc : h.pc with
  | perIpCheck kind =>
      simp only [obstacles, hpc] at hsome hforeign ⊢
      split at hsome
      · rename_i hfull
        rw [if_pos hfull] at hforeign
        rw [← Shared.countForIp_without hforeign] at hfull
        rw [if_pos hfull]
        exact KeyedTable.filter_values_ne_nil (capped_pos hfull)
      · exact absurd rfl hsome
  | globalCheck kind =>
      simp only [obstacles, hpc] at hsome hforeign ⊢
      split at hsome
      · rename_i hfull
        rw [if_pos hfull] at hforeign
        rw [← Shared.countAll_without hforeign] at hfull
        rw [if_pos hfull]
        exact Shared.exists_of_countAll (capped_pos hfull)
      · exact absurd rfl hsome
  | httpInsert entry =>
      simp only [obstacles, hpc] at hsome hforeign ⊢
      obtain ⟨e, he⟩ : ∃ e, sh.tunnels.lookup entry.subdomain = some e := by
        simpa [Option.ne_none_iff_exists'] using hsome
      have hmux : own e.mux = false := hforeign e (by simp [he])
      simp [Shared.without, KeyedTable.lookup_filter, he, hmux]
  | _ => exact absurd (by simp [obstacles, hpc]) hsome

theorem Handler.turnedDown_without (hdown : h.turnedDown cfg i sh = true)
    (hforeign : ∀ entry ∈ h.obstacles cfg sh, own entry.mux = false) :
    h.turnedDown cfg i (sh.without own) = true := by
  obtain ⟨hlock, hsome⟩ := turnedDown_iff.mp hdown
  exact turnedDown_iff.mpr ⟨hlock, obstacles_without hsome hforeign⟩

end Blame

end Seamless.Relay
