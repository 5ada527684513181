import Mathlib.Data.Rat.Defs
import Seamless.Relay.Admission

/-!
The state that all handlers of the relay share, and the single lock sections in
which they read and change it.
-/

namespace Seamless.Relay

open Seamless.Library
open Seamless.Library.NetAddr

/-- A client session, numbered in the order of connection. -/
abbrev MuxId := Nat

structure BackendEntry where
  id : String
  addr : SocketAddr
  weight : UInt32
  healthy : Bool
  requests : UInt64
  errors : UInt64

/-- Token bucket of one tunnel. Tokens are exact rationals here. -/
structure DDoSProtection where
  enabled : Bool
  rps : UInt32
  burst : UInt32
  blockedCount : UInt64
  challengeMode : Bool
  tokens : ℚ
  lastRefill : Nat

def DDoSProtection.new (rps burst : UInt32) (now : Nat) : DDoSProtection where
  enabled := false
  rps := rps
  burst := burst
  blockedCount := 0
  challengeMode := true
  tokens := burst.toNat
  lastRefill := now

/-- Attempt to consume one token; `now` is in nanoseconds. -/
def DDoSProtection.check (d : DDoSProtection) (now : Nat) : Bool × DDoSProtection :=
  if !d.enabled then (true, d)
  else if d.rps = 0 then (true, d)
  else
    let elapsed : ℚ := ((now - d.lastRefill : Nat) : ℚ) / 1000000000
    let tokens := min (d.tokens + elapsed * d.rps.toNat) d.burst.toNat
    if 1 ≤ tokens then (true, { d with tokens := tokens - 1, lastRefill := now })
    else
      (false, { d with
        tokens := tokens
        lastRefill := now
        blockedCount := d.blockedCount + 1 })

structure TunnelEntry where
  mux : MuxId
  subdomain : String
  customDomain : Option String
  connectedAt : Int
  clientIp : String
  paused : Bool
  backends : List BackendEntry
  ddos : DDoSProtection

def TunnelEntry.new (mux : MuxId) (key clientIp : String) (unixNow : Int) (now : Nat) :
    TunnelEntry where
  mux := mux
  subdomain := key
  customDomain := none
  connectedAt := unixNow
  clientIp := clientIp
  paused := false
  backends := []
  ddos := .new 100 200 now

abbrev TunnelMap := KeyedTable String TunnelEntry

/-- A value of the custom-domain map. `holder` is history: the session found
under `key` at the moment the admin wrote the mapping. -/
structure Binding where
  key : String
  holder : Option MuxId
  deriving Repr, DecidableEq

/-- What the handlers share. `tcpPorts` records with each port the call that
inserted it; `swept` records the sessions whose entry was evicted. Both tags are
history, no code reads them. -/
structure Shared where
  tunnels : TunnelMap
  tcpPorts : List (UInt16 × MuxId)
  customDomains : KeyedTable String Binding
  rates : RateTable
  lists : Lists
  -- The handler that holds the `tunnels` mutex across an await.
  lock : Option MuxId
  -- Live listeners of the operating system and who holds them.
  listeners : KeyedTable UInt16 MuxId
  -- Sessions whose disconnect signal was sent.
  signalled : List MuxId
  swept : List MuxId

def Shared.initial (lists : Lists) : Shared where
  tunnels := ∅
  tcpPorts := []
  customDomains := ∅
  rates := ∅
  lists := lists
  lock := none
  listeners := ∅
  signalled := []
  swept := []

namespace Shared

def holder (sh : Shared) (key : String) : Option MuxId :=
  (sh.tunnels.lookup key).map TunnelEntry.mux

def portInUse (sh : Shared) (port : UInt16) : Bool :=
  sh.tcpPorts.any fun entry => entry.1 == port

def insertTunnel (sh : Shared) (key : String) (entry : TunnelEntry) : Shared :=
  { sh with tunnels := sh.tunnels.insert key entry }

def removeTunnel (sh : Shared) (key : String) : Shared :=
  { sh with tunnels := sh.tunnels.erase key }

def insertPort (sh : Shared) (port : UInt16) (mux : MuxId) : Shared :=
  { sh with tcpPorts := (port, mux) :: sh.tcpPorts }

def removePort (sh : Shared) (port : UInt16) : Shared :=
  { sh with tcpPorts := sh.tcpPorts.filter fun entry => entry.1 != port }

def openListener (sh : Shared) (port : UInt16) (mux : MuxId) : Shared :=
  { sh with listeners := sh.listeners.insert port mux }

def dropListener (sh : Shared) (port : UInt16) : Shared :=
  { sh with listeners := sh.listeners.erase port }

def signal (sh : Shared) (mux : MuxId) : Shared :=
  { sh with signalled := mux :: sh.signalled }

def sessionsFrom (sh : Shared) (ip : String) : List MuxId :=
  ((KeyedTable.values sh.tunnels).filter fun entry => entry.clientIp == ip).map
    TunnelEntry.mux

/-- The per-IP count, as the `u32` that is compared with the cap. -/
def countForIp (sh : Shared) (ip : String) : Nat :=
  KeyedTable.count (fun entry => entry.clientIp == ip) sh.tunnels % 2 ^ 32

/-- The number of tunnels, as the `u32` that is compared with the cap. -/
def countAll (sh : Shared) : Nat := KeyedTable.size sh.tunnels % 2 ^ 32

/-- `now.saturating_sub(connected_at) as u64`: a clock that was set back gives a
huge age. -/
def age (now : Int) (entry : TunnelEntry) : Nat :=
  let difference := max (-2 ^ 63) (min (2 ^ 63 - 1) (now - entry.connectedAt))
  (difference % 2 ^ 64).toNat

def isExpired (cfg : Config) (now : Int) (entry : TunnelEntry) : Bool :=
  cfg.tunnelMaxAge.toNat ≤ age now entry

def evict (sh : Shared) (key : String) (entry : TunnelEntry) : Shared :=
  { sh with
    tunnels := sh.tunnels.erase key
    signalled := entry.mux :: sh.signalled
    swept := entry.mux :: sh.swept }

/-- One tick of the tunnel expiry task. -/
def sweep (cfg : Config) (now : Int) (sh : Shared) : Shared :=
  (sh.tunnels.entries.filter fun e => isExpired cfg now e.2).foldl
    (fun sh e => sh.evict e.1 e.2) sh

/-- The SIGTERM task: signal every tunnel, then clear the map. -/
def shutdown (sh : Shared) : Shared :=
  { sh with
    tunnels := ∅
    signalled := (KeyedTable.values sh.tunnels).map TunnelEntry.mux ++ sh.signalled
    swept := (KeyedTable.values sh.tunnels).map TunnelEntry.mux ++ sh.swept }

section Holder

variable (sh : Shared) (key k : String) (entry : TunnelEntry)

@[simp] theorem holder_insertTunnel_self :
    (sh.insertTunnel key entry).holder key = some entry.mux := by
  simp [holder, insertTunnel]

@[simp] theorem holder_removeTunnel_self : (sh.removeTunnel key).holder key = none := by
  simp [holder, removeTunnel]

variable {sh key k}

theorem holder_insertTunnel_ne (h : k ≠ key) :
    (sh.insertTunnel key entry).holder k = sh.holder k := by
  simp [holder, insertTunnel, AList.lookup_insert_ne h]

theorem holder_removeTunnel_ne (h : k ≠ key) :
    (sh.removeTunnel key).holder k = sh.holder k := by
  simp [holder, removeTunnel, AList.lookup_erase_ne h]

theorem holder_eq_some {i : MuxId} :
    sh.holder k = some i ↔ ∃ e, sh.tunnels.lookup k = some e ∧ e.mux = i := by
  simp [holder, Option.map_eq_some_iff]

theorem holder_eq_none : sh.holder k = none ↔ sh.tunnels.lookup k = none := by
  simp [holder]

theorem holder_congr {sh' : Shared} (h : sh'.tunnels = sh.tunnels) :
    sh'.holder k = sh.holder k := by
  simp [holder, h]

end Holder

/-- What a step that only evicts may do: entries disappear, and the session of
every entry that does is marked. -/
structure Evicts (sh sh' : Shared) : Prop where
  sublist : sh'.tunnels.entries.Sublist sh.tunnels.entries
  kept : ∀ k e, sh.tunnels.lookup k = some e → e.mux ∉ sh'.swept →
    sh'.tunnels.lookup k = some e
  swept : ∀ i, i ∈ sh.swept → i ∈ sh'.swept
  tcpPorts : sh'.tcpPorts = sh.tcpPorts
  customDomains : sh'.customDomains = sh.customDomains
  listeners : sh'.listeners = sh.listeners
  lock : sh'.lock = sh.lock

theorem Evicts.refl (sh : Shared) : Evicts sh sh :=
  ⟨.refl _, fun _ _ h _ => h, fun _ h => h, rfl, rfl, rfl, rfl⟩

theorem Evicts.trans {sh sh' sh'' : Shared} (h : Evicts sh sh') (h' : Evicts sh' sh'') :
    Evicts sh sh'' where
  sublist := h'.sublist.trans h.sublist
  kept := fun k e hk hswept =>
    h'.kept k e (h.kept k e hk fun hmem => hswept (h'.swept _ hmem)) hswept
  swept := fun i hi => h'.swept i (h.swept i hi)
  tcpPorts := h'.tcpPorts.trans h.tcpPorts
  customDomains := h'.customDomains.trans h.customDomains
  listeners := h'.listeners.trans h.listeners
  lock := h'.lock.trans h.lock

theorem Evicts.lookup {sh sh' : Shared} (h : Evicts sh sh') {k : String} {e : TunnelEntry}
    (hk : sh'.tunnels.lookup k = some e) : sh.tunnels.lookup k = some e := by
  have hmem := AList.mem_lookup_iff.mp hk
  exact AList.mem_lookup_iff.mpr (h.sublist.subset hmem)

theorem evicts_evict {sh : Shared} {key : String} {entry : TunnelEntry}
    (h : ∀ e, sh.tunnels.lookup key = some e → e.mux = entry.mux) :
    Evicts sh (sh.evict key entry) where
  sublist := List.kerase_sublist key _
  kept := by
    intro k e hk hswept
    have hne : k ≠ key := by
      rintro rfl
      exact hswept (by simp [evict, h e hk])
    simpa [evict, AList.lookup_erase_ne hne] using hk
  swept := fun i hi => List.mem_cons_of_mem _ hi
  tcpPorts := rfl
  customDomains := rfl
  listeners := rfl
  lock := rfl

theorem evicts_foldl {expired : List (Sigma fun _ : String => TunnelEntry)} {sh : Shared}
    (h : ∀ x ∈ expired, ∀ e, sh.tunnels.lookup x.1 = some e → e = x.2) :
    Evicts sh (expired.foldl (fun sh e => sh.evict e.1 e.2) sh) := by
  induction expired generalizing sh with
  | nil => exact .refl sh
  | cons x expired ih =>
      have hfirst : Evicts sh (sh.evict x.1 x.2) :=
        evicts_evict fun e he => by rw [h x (by simp) e he]
      refine hfirst.trans (ih fun y hy e he => ?_)
      exact h y (by simp [hy]) e (hfirst.lookup he)

theorem lookup_of_mem_entries {sh : Shared} {x : Sigma fun _ : String => TunnelEntry}
    (h : x ∈ sh.tunnels.entries) : sh.tunnels.lookup x.1 = some x.2 :=
  AList.mem_lookup_iff.mpr h

theorem evicts_sweep (cfg : Config) (now : Int) (sh : Shared) :
    Evicts sh (sh.sweep cfg now) := by
  refine evicts_foldl fun x hx e he => ?_
  rw [lookup_of_mem_entries (List.mem_of_mem_filter hx)] at he
  exact (Option.some.inj he).symm

theorem evicts_shutdown (sh : Shared) : Evicts sh sh.shutdown where
  sublist := List.nil_sublist _
  kept := by
    intro k e hk hswept
    refine absurd (List.mem_append_left _ (List.mem_map_of_mem ?_)) hswept
    exact KeyedTable.mem_values.mpr ⟨k, hk⟩
  swept := fun i hi => List.mem_append_right _ hi
  tcpPorts := rfl
  customDomains := rfl
  listeners := rfl
  lock := rfl

theorem foldl_evict_tunnels (expired : List (Sigma fun _ : String => TunnelEntry))
    (sh : Shared) (k : String) :
    (expired.foldl (fun sh e => sh.evict e.1 e.2) sh).tunnels.lookup k =
      if k ∈ expired.map Sigma.fst then none else sh.tunnels.lookup k := by
  induction expired generalizing sh with
  | nil => simp
  | cons x expired ih =>
      rw [List.foldl_cons, ih]
      by_cases hkey : k = x.1
      · subst hkey
        simp [evict]
      · simp only [List.map_cons, List.mem_cons, hkey, false_or]
        simp [evict, AList.lookup_erase_ne hkey]

theorem lookup_sweep (cfg : Config) (now : Int) (sh : Shared) (k : String) :
    (sh.sweep cfg now).tunnels.lookup k =
      (sh.tunnels.lookup k).filter fun e => !isExpired cfg now e := by
  rw [sweep, foldl_evict_tunnels]
  split
  · rename_i hmem
    obtain ⟨x, hx, rfl⟩ := List.mem_map.mp hmem
    obtain ⟨hentry, hexpired⟩ := List.mem_filter.mp hx
    rw [lookup_of_mem_entries hentry, Option.filter_some_neg (by simp [hexpired])]
  · rename_i hnot
    cases hk : sh.tunnels.lookup k with
    | none => rfl
    | some e =>
        have hkeep : isExpired cfg now e = false := by
          by_contra hexpired
          refine hnot (List.mem_map.mpr ⟨⟨k, e⟩, List.mem_filter.mpr ⟨?_, ?_⟩, rfl⟩)
          · exact AList.mem_lookup_iff.mp hk
          · simpa using hexpired
        rw [Option.filter_some_pos (by simp [hkeep])]

end Shared

end Seamless.Relay
