import Seamless.Relay.Registry

/-!
The tunnel expiry task against the ages that its configuration speaks of. The age of a
tunnel is a difference of two clock readings, and the clock may have been set back since
the tunnel was registered.
-/

namespace Seamless.Relay.Shared

open Seamless.Library

/-- The age of the tunnel has reached the maximum, in the integers. -/
def isOld (cfg : Config) (now : Int) (entry : TunnelEntry) : Bool :=
  (cfg.tunnelMaxAge.toNat : Int) ≤ now - entry.connectedAt

/-- One tick signals and removes the old tunnels, and leaves every other entry where it
was and without a signal. -/
structure SweepsOld (cfg : Config) (now : Int) (sh : Shared) : Prop where
  lookup : ∀ key, (sh.sweep cfg now).tunnels.lookup key =
    (sh.tunnels.lookup key).filter fun entry => !isOld cfg now entry
  signalled : (sh.sweep cfg now).signalled =
    ((sh.tunnels.entries.filter fun e => isOld cfg now e.2).map fun e => e.2.mux).reverse ++
      sh.signalled

/-- The conversion to `u64` keeps the age on the right side of the maximum: a tunnel from
the future has an age of almost `2 ^ 64`, and an age stops growing at `2 ^ 63 - 1`. -/
structure AgeFits (cfg : Config) (now : Int) (entry : TunnelEntry) : Prop where
  future : now < entry.connectedAt →
    2 ^ 64 + max (-2 ^ 63) (now - entry.connectedAt) < (cfg.tunnelMaxAge.toNat : Int)
  saturated : 2 ^ 63 ≤ (cfg.tunnelMaxAge.toNat : Int) →
    now - entry.connectedAt < cfg.tunnelMaxAge.toNat

section Age

variable {cfg : Config} {now : Int} {entry : TunnelEntry}

theorem age_of_le (h : entry.connectedAt ≤ now) :
    (age now entry : Int) = min (2 ^ 63 - 1) (now - entry.connectedAt) := by
  simp only [age]
  omega

theorem age_of_lt (h : now < entry.connectedAt) :
    (age now entry : Int) = 2 ^ 64 + max (-2 ^ 63) (now - entry.connectedAt) := by
  simp only [age]
  omega

theorem isExpired_eq_isOld_iff (hpos : 0 < cfg.tunnelMaxAge.toNat) :
    isExpired cfg now entry = isOld cfg now entry ↔ AgeFits cfg now entry := by
  have hexpired : isExpired cfg now entry = true ↔
      (cfg.tunnelMaxAge.toNat : Int) ≤ age now entry := by
    simp [isExpired]
  have hold : isOld cfg now entry = true ↔
      (cfg.tunnelMaxAge.toNat : Int) ≤ now - entry.connectedAt := by
    simp [isOld]
  rw [Bool.eq_iff_iff, hexpired, hold]
  rcases lt_or_ge now entry.connectedAt with hlt | hge
  · rw [age_of_lt hlt]
    constructor
    · intro hiff
      constructor <;> omega
    · rintro ⟨hfuture, -⟩
      have := hfuture hlt
      omega
  · rw [age_of_le hge]
    constructor
    · intro hiff
      constructor <;> omega
    · rintro ⟨-, hsaturated⟩
      omega

end Age

theorem foldl_evict_signalled (expired : List (Sigma fun _ : String => TunnelEntry))
    (sh : Shared) : (expired.foldl (fun sh e => sh.evict e.1 e.2) sh).signalled =
      (expired.map fun e => e.2.mux).reverse ++ sh.signalled := by
  induction expired generalizing sh with
  | nil => rfl
  | cons x expired ih =>
      rw [List.foldl_cons, ih]
      simp [evict]

theorem isExpired_eq_isOld_of_sweepsOld {cfg : Config} {now : Int} {sh : Shared}
    (h : SweepsOld cfg now sh) {key : String} {entry : TunnelEntry}
    (hkey : sh.tunnels.lookup key = some entry) :
    isExpired cfg now entry = isOld cfg now entry := by
  have hlookup := h.lookup key
  rw [lookup_sweep, hkey] at hlookup
  cases hexpired : isExpired cfg now entry with
  | false =>
      cases hold : isOld cfg now entry with
      | false => rfl
      | true => simp [Option.filter, hexpired, hold] at hlookup
  | true =>
      cases hold : isOld cfg now entry with
      | false => simp [Option.filter, hexpired, hold] at hlookup
      | true => rfl

/-- A tick of the expiry task removes exactly the old tunnels when the age of every
tunnel survives the conversion. -/
theorem sweepsOld_iff (cfg : Config) (hpos : 0 < cfg.tunnelMaxAge.toNat) (now : Int)
    (sh : Shared) : SweepsOld cfg now sh ↔
      ∀ key entry, sh.tunnels.lookup key = some entry → AgeFits cfg now entry := by
  constructor
  · intro h key entry hkey
    exact (isExpired_eq_isOld_iff hpos).mp (isExpired_eq_isOld_of_sweepsOld h hkey)
  · intro hfits
    have heq : ∀ key entry, sh.tunnels.lookup key = some entry →
        isExpired cfg now entry = isOld cfg now entry :=
      fun key entry hkey => (isExpired_eq_isOld_iff hpos).mpr (hfits key entry hkey)
    constructor
    · intro key
      rw [lookup_sweep]
      cases hkey : sh.tunnels.lookup key with
      | none => rfl
      | some entry => simp [Option.filter, heq key entry hkey]
    · rw [sweep, foldl_evict_signalled]
      congr 3
      apply List.filter_congr
      intro x hx
      exact heq x.1 x.2 (lookup_of_mem_entries hx)

/-- A relay with one tunnel, registered at `since`. -/
def withTunnel (since : Int) : Shared :=
  (Shared.initial .disabled).insertTunnel "app" (.new 0 "app" "192.0.2.1" since 0)

theorem connectedAt_of_withTunnel {since : Int} {key : String} {entry : TunnelEntry}
    (h : (withTunnel since).tunnels.lookup key = some entry) : entry.connectedAt = since := by
  have hmem : entry ∈ KeyedTable.values (withTunnel since).tunnels :=
    KeyedTable.mem_values.mpr ⟨key, h⟩
  have hvalues : KeyedTable.values (withTunnel since).tunnels =
      [.new 0 "app" "192.0.2.1" since 0] := rfl
  rw [hvalues, List.mem_singleton] at hmem
  rw [hmem]
  rfl

/-- An hour as the maximum, and a clock that only goes forward. -/
theorem sweepsOld_hourly :
    SweepsOld { Config.unlimited "relay.test" with tunnelMaxAge := 3600 } 9000
      (withTunnel 5000) := by
  apply (sweepsOld_iff _ (by decide) _ _).mpr
  intro key entry hkey
  have hsince := connectedAt_of_withTunnel hkey
  constructor
  · intro hfuture
    omega
  · intro hlarge
    exact absurd hlarge (by decide)

/-- The clock is set back by a second, and the next tick disconnects a tunnel that has
just come. -/
theorem sweep_removes_young_tunnel :
    ¬ SweepsOld { Config.unlimited "relay.test" with tunnelMaxAge := 3600 } 4999
      (withTunnel 5000) := by
  rintro ⟨-, hsignalled⟩
  revert hsignalled
  decide +kernel

end Seamless.Relay.Shared
