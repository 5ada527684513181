import Seamless.Library.WeightedCycle
import Seamless.Relay.AdminApi

/-!
The choice of a backend for a tunnel. A backend is named by its place in the list, as two
entries may agree in every field. Sums and the slot are `u32`, the counter is `u64`, and
all of them wrap; only the remainder by zero stops the task.
-/

namespace Seamless.Relay

open Seamless.Library
open Seamless.Library.NetAddr
open Seamless.Library.TransitionSystem

/-- What a call of `select_backend` comes to. `dividesByZero` is a panic, `fallback` the
choice after the loop. -/
inductive Selected where
  | noneHealthy
  | dividesByZero
  | chosen (i : Nat)
  | fallback (i : Nat)
  deriving DecidableEq

/-- The fields of a tunnel that the choice reads. -/
structure Balancer where
  backends : List BackendEntry
  rrCounter : UInt64

namespace Balancer

def effectiveWeight (b : BackendEntry) : UInt32 := max b.weight 1

def healthyBackends (backends : List BackendEntry) : List (BackendEntry × Nat) :=
  backends.zipIdx.filter fun b => b.1.healthy

def weights (healthy : List (BackendEntry × Nat)) : List UInt32 :=
  healthy.map fun b => effectiveWeight b.1

def totalWeight (healthy : List (BackendEntry × Nat)) : UInt32 :=
  (weights healthy).foldl (· + ·) 0

/-- The loop over the healthy backends. -/
def findSlot : List (BackendEntry × Nat) → UInt32 → Option Nat
  | [], _ => none
  | b :: rest, slot =>
      let w := effectiveWeight b.1
      if slot < w then some b.2 else findSlot rest (slot - w)

def slotOf (healthy : List (BackendEntry × Nat)) (counter : UInt64) : UInt32 :=
  (counter % (totalWeight healthy).toUInt64).toUInt32

def selectBackend (t : Balancer) : Selected × Balancer :=
  match healthyBackends t.backends with
  | [] => (.noneHealthy, t)
  | first :: rest =>
      -- The counter is incremented before the remainder is taken.
      (if totalWeight (first :: rest) = 0 then .dividesByZero
        else match findSlot (first :: rest) (slotOf (first :: rest) t.rrCounter) with
          | some i => .chosen i
          | none => .fallback first.2,
        { t with rrCounter := t.rrCounter + 1 })

/-- The results of consecutive calls. -/
def selections : Nat → Balancer → List Selected
  | 0, _ => []
  | n + 1, t => t.selectBackend.1 :: selections n t.selectBackend.2

/-- Some addition of the sum goes over the range of `u32`. -/
def sumOverflows (sum : UInt32) : List UInt32 → Bool
  | [] => false
  | w :: ws => 2 ^ 32 ≤ sum.toNat + w.toNat || sumOverflows (sum + w) ws

/-- The subtractions that the loop makes, each with the slot it is made from. -/
def subtractions : List (BackendEntry × Nat) → UInt32 → List (UInt32 × UInt32)
  | [], _ => []
  | b :: rest, slot =>
      let w := effectiveWeight b.1
      if slot < w then [] else (slot, w) :: subtractions rest (slot - w)

/-- A call in which no operation goes over its range or divides by zero and which returns
a healthy backend if there is one. -/
structure Safe (t : Balancer) : Prop where
  sum : sumOverflows 0 (weights (healthyBackends t.backends)) = false
  slots : ∀ p ∈ subtractions (healthyBackends t.backends)
    (slotOf (healthyBackends t.backends) t.rrCounter), p.2 ≤ p.1
  divisor : t.selectBackend.1 ≠ .dividesByZero
  healthy : (∃ b ∈ t.backends, b.healthy = true) →
    ∃ i b, (t.selectBackend.1 = .chosen i ∨ t.selectBackend.1 = .fallback i) ∧
      t.backends[i]? = some b ∧ b.healthy = true

end Balancer

/-- The sum of the effective weights of the healthy backends, as a number. -/
def healthyWeight (backends : List BackendEntry) : Nat :=
  ((backends.filter fun b => b.healthy).map fun b => max b.weight.toNat 1).sum

/-- The requests, and the background checks, that change the backends of a tunnel. -/
inductive BackendMove where
  | add (id : String) (addr : SocketAddr) (weight : UInt32)
  | remove (id : String)
  | health (id : String) (healthy : Bool)

def BackendMove.step (backends : List BackendEntry) : BackendMove → Option (List BackendEntry)
  | .add id addr weight => some (backends ++ [⟨id, addr, max 1 weight, true, 0, 0⟩])
  | .remove id => some (backends.filter fun b => b.id != id)
  | .health id healthy =>
      updateFirst (fun b => b.id == id) (fun b => { b with healthy := healthy }) backends

namespace Balancer

variable {backends : List BackendEntry} {healthy : List (BackendEntry × Nat)} {counter : UInt64}
  {i : Nat} {b : BackendEntry}

/-- The healthy backends as keys with weights. -/
def entries (healthy : List (BackendEntry × Nat)) : List (Nat × Nat) :=
  healthy.map fun b => (b.2, (effectiveWeight b.1).toNat)

theorem toNat_effectiveWeight (b : BackendEntry) :
    (effectiveWeight b).toNat = max b.weight.toNat 1 := by
  change (if b.weight ≤ 1 then (1 : UInt32) else b.weight).toNat = _
  have hle : b.weight ≤ 1 ↔ b.weight.toNat ≤ 1 := UInt32.le_iff_toNat_le
  by_cases hweight : b.weight ≤ 1
  · rw [if_pos hweight, max_eq_right (hle.mp hweight)]
    rfl
  · rw [if_neg hweight, max_eq_left (le_of_not_ge (mt hle.mpr hweight))]

theorem mem_healthyBackends :
    (b, i) ∈ healthyBackends backends ↔ backends[i]? = some b ∧ b.healthy = true := by
  rw [healthyBackends, List.mem_filter, List.mk_mem_zipIdx_iff_getElem?]

theorem healthyBackends_ne_nil_iff :
    healthyBackends backends ≠ [] ↔ ∃ b ∈ backends, b.healthy = true := by
  constructor
  · intro hne
    obtain ⟨⟨b, i⟩, hmem⟩ := List.exists_mem_of_ne_nil _ hne
    obtain ⟨hi, hhealthy⟩ := mem_healthyBackends.mp hmem
    exact ⟨b, List.mem_of_getElem? hi, hhealthy⟩
  · rintro ⟨b, hb, hhealthy⟩
    obtain ⟨i, hi⟩ := List.mem_iff_getElem?.mp hb
    exact List.ne_nil_of_mem (mem_healthyBackends.mpr ⟨hi, hhealthy⟩)

theorem nodup_keys (backends : List BackendEntry) :
    ((entries (healthyBackends backends)).map Prod.fst).Nodup := by
  have hsub : ((healthyBackends backends).map Prod.snd).Sublist (backends.zipIdx.map Prod.snd) :=
    List.filter_sublist.map _
  rw [List.zipIdx_map_snd] at hsub
  rw [entries, List.map_map]
  exact hsub.nodup (List.nodup_range' ..)

theorem healthyWeight_eq (backends : List BackendEntry) :
    healthyWeight backends = WeightedCycle.total (entries (healthyBackends backends)) := by
  have hfst : (healthyBackends backends).map Prod.fst = backends.filter fun b => b.healthy := by
    have hfilter := List.filter_map (p := fun b => b.healthy) (f := Prod.fst) (l := backends.zipIdx)
    rw [List.zipIdx_map_fst] at hfilter
    exact hfilter.symm
  rw [healthyWeight, ← hfst, WeightedCycle.total, entries, List.map_map, List.map_map]
  congr 2
  funext b
  exact (toNat_effectiveWeight b.1).symm

theorem toNat_foldl (ws : List UInt32) (sum : UInt32) :
    (ws.foldl (· + ·) sum).toNat = (sum.toNat + (ws.map UInt32.toNat).sum) % 2 ^ 32 := by
  induction ws generalizing sum with
  | nil => simp [Nat.mod_eq_of_lt sum.toNat_lt]
  | cons w ws ih =>
      rw [List.foldl_cons, ih, UInt32.toNat_add, List.map_cons, List.sum_cons, Nat.mod_add_mod,
        Nat.add_assoc]

theorem sum_weights (healthy : List (BackendEntry × Nat)) :
    ((weights healthy).map UInt32.toNat).sum = WeightedCycle.total (entries healthy) := by
  rw [weights, WeightedCycle.total, entries, List.map_map, List.map_map]
  rfl

theorem toNat_totalWeight (healthy : List (BackendEntry × Nat)) :
    (totalWeight healthy).toNat = WeightedCycle.total (entries healthy) % 2 ^ 32 := by
  rw [totalWeight, toNat_foldl, sum_weights, UInt32.toNat_zero, Nat.zero_add]

theorem sumOverflows_eq_false_iff {sum : UInt32} {ws : List UInt32} :
    sumOverflows sum ws = false ↔ sum.toNat + (ws.map UInt32.toNat).sum < 2 ^ 32 := by
  induction ws generalizing sum with
  | nil => simpa [sumOverflows] using sum.toNat_lt
  | cons w ws ih =>
      rw [sumOverflows, Bool.or_eq_false_iff, ih, List.map_cons, List.sum_cons, UInt32.toNat_add,
        decide_eq_false_iff_not]
      omega

theorem findSlot_eq (healthy : List (BackendEntry × Nat)) (slot : UInt32) :
    findSlot healthy slot = WeightedCycle.pick (entries healthy) slot.toNat := by
  induction healthy generalizing slot with
  | nil => rfl
  | cons b rest ih =>
      rw [findSlot, entries, List.map_cons, WeightedCycle.pick]
      by_cases hslot : slot < effectiveWeight b.1
      · rw [if_pos hslot, if_pos (UInt32.lt_iff_toNat_lt.mp hslot)]
      · have hle := UInt32.le_iff_toNat_le.mpr (not_lt.mp (mt UInt32.lt_iff_toNat_lt.mpr hslot))
        rw [if_neg hslot, if_neg (mt UInt32.lt_iff_toNat_lt.mpr hslot), ih,
          UInt32.toNat_sub_of_le _ _ hle]
        rfl

theorem le_of_mem_subtractions {slot : UInt32} {p : UInt32 × UInt32}
    (h : p ∈ subtractions healthy slot) : p.2 ≤ p.1 := by
  induction healthy generalizing slot with
  | nil => cases h
  | cons b rest ih =>
      rw [subtractions] at h
      split at h
      · cases h
      · rename_i hslot
        rcases List.mem_cons.mp h with rfl | hrest
        · exact UInt32.not_lt.mp hslot
        · exact ih hrest

theorem total_pos (h : healthyBackends backends ≠ []) : 0 < healthyWeight backends := by
  rw [healthyWeight_eq]
  obtain ⟨first, rest, hcons⟩ := List.exists_cons_of_ne_nil h
  rw [hcons, entries, List.map_cons, WeightedCycle.total_cons, toNat_effectiveWeight]
  omega

theorem divisor_ne_zero (hfits : healthyWeight backends < 2 ^ 32)
    (hhealthy : healthyBackends backends ≠ []) : healthyWeight backends % 2 ^ 32 ≠ 0 := by
  rw [Nat.mod_eq_of_lt hfits]
  exact (total_pos hhealthy).ne'

theorem toNat_slotOf (counter : UInt64) (h : healthyWeight backends % 2 ^ 32 ≠ 0) :
    (slotOf (healthyBackends backends) counter).toNat =
      counter.toNat % (healthyWeight backends % 2 ^ 32) := by
  have hmod := Nat.mod_lt counter.toNat (Nat.pos_of_ne_zero h)
  have hdivisor := Nat.mod_lt (healthyWeight backends) (show 0 < 2 ^ 32 by decide)
  rw [slotOf, UInt64.toNat_toUInt32, UInt64.toNat_mod, UInt32.toNat_toUInt64, toNat_totalWeight,
    ← healthyWeight_eq]
  exact Nat.mod_eq_of_lt (hmod.trans hdivisor)

theorem selectBackend_of_divisor (counter : UInt64) (h : healthyWeight backends % 2 ^ 32 ≠ 0) :
    ∃ i, WeightedCycle.pick (entries (healthyBackends backends))
        (counter.toNat % (healthyWeight backends % 2 ^ 32)) = some i ∧
      selectBackend ⟨backends, counter⟩ = (.chosen i, ⟨backends, counter + 1⟩) := by
  have hslot := toNat_slotOf counter h
  have htotal : totalWeight (healthyBackends backends) ≠ 0 := by
    intro hzero
    apply h
    rw [healthyWeight_eq, ← toNat_totalWeight, hzero]
    rfl
  have hlt : (slotOf (healthyBackends backends) counter).toNat <
      WeightedCycle.total (entries (healthyBackends backends)) := by
    rw [hslot, ← healthyWeight_eq]
    exact (Nat.mod_lt _ (Nat.pos_of_ne_zero h)).trans_le (Nat.mod_le _ _)
  obtain ⟨i, hpick⟩ := WeightedCycle.exists_pick hlt
  refine ⟨i, hslot ▸ hpick, ?_⟩
  rw [← findSlot_eq] at hpick
  unfold selectBackend
  cases hhealthy : healthyBackends backends with
  | nil => simp [healthyWeight_eq, hhealthy, entries, WeightedCycle.total] at h
  | cons first rest =>
      rw [hhealthy] at htotal hpick
      simp only [if_neg htotal, hpick]

theorem selectBackend_of_none (h : healthyBackends backends = []) (counter : UInt64) :
    selectBackend ⟨backends, counter⟩ = (.noneHealthy, ⟨backends, counter⟩) := by
  simp [selectBackend, h]

theorem dividesByZero_iff (backends : List BackendEntry) (counter : UInt64) :
    (selectBackend ⟨backends, counter⟩).1 = .dividesByZero ↔
      (∃ b ∈ backends, b.healthy = true) ∧ 2 ^ 32 ∣ healthyWeight backends := by
  rw [Nat.dvd_iff_mod_eq_zero, ← healthyBackends_ne_nil_iff]
  by_cases hzero : healthyWeight backends % 2 ^ 32 = 0
  · cases hhealthy : healthyBackends backends with
    | nil => simp [selectBackend_of_none hhealthy]
    | cons first rest =>
        have htotal : totalWeight (first :: rest) = 0 := by
          rw [← UInt32.toNat_inj, ← hhealthy, toNat_totalWeight, ← healthyWeight_eq, hzero]
          rfl
        simpa [selectBackend, hhealthy, htotal] using hzero
  · obtain ⟨i, -, hselected⟩ := selectBackend_of_divisor counter hzero
    rw [hselected]
    exact ⟨fun h => absurd h (by simp), fun h => absurd h.2 hzero⟩

theorem mem_keys_iff : i ∈ (entries (healthyBackends backends)).map Prod.fst ↔
    ∃ b, backends[i]? = some b ∧ b.healthy = true := by
  simp only [entries, List.map_map, List.mem_map, Function.comp_apply]
  constructor
  · rintro ⟨⟨b, j⟩, hentry, rfl⟩
    exact ⟨b, mem_healthyBackends.mp hentry⟩
  · rintro ⟨b, hb⟩
    exact ⟨(b, i), mem_healthyBackends.mpr hb, rfl⟩

/-- A call is safe exactly when the weights of the healthy backends sum to a `u32`. -/
theorem selectBackend_safe_iff (t : Balancer) : t.Safe ↔ healthyWeight t.backends < 2 ^ 32 := by
  obtain ⟨backends, counter⟩ := t
  have hsum : sumOverflows 0 (weights (healthyBackends backends)) = false ↔
      healthyWeight backends < 2 ^ 32 := by
    rw [sumOverflows_eq_false_iff, sum_weights, healthyWeight_eq, UInt32.toNat_zero, Nat.zero_add]
  constructor
  · intro hsafe
    exact hsum.mp hsafe.sum
  · intro hfits
    by_cases hnone : healthyBackends backends = []
    · refine ⟨hsum.mpr hfits, fun p hp => le_of_mem_subtractions hp, ?_, ?_⟩
      · simp [selectBackend_of_none hnone]
      · intro hhealthy
        exact absurd hnone (healthyBackends_ne_nil_iff.mpr hhealthy)
    · obtain ⟨i, hpick, hselected⟩ :=
        selectBackend_of_divisor counter (divisor_ne_zero hfits hnone)
      obtain ⟨b, hb, hhealthy⟩ := mem_keys_iff.mp (WeightedCycle.mem_of_pick hpick)
      refine ⟨hsum.mpr hfits, fun p hp => le_of_mem_subtractions hp, ?_, ?_⟩
      · simp [hselected]
      · intro _
        exact ⟨i, b, .inl (by rw [hselected]), hb, hhealthy⟩

end Balancer

/-- Two backends of weight `2 ^ 31`. -/
def heavyBackends : List BackendMove :=
  [.add "a" ⟨.v4 ⟨10, 0, 0, 1⟩, 80, 0⟩ (2 ^ 31), .add "b" ⟨.v4 ⟨10, 0, 0, 2⟩, 80, 0⟩ (2 ^ 31)]

theorem select_backend_divides_by_zero :
    ¬ ∀ (moves : List BackendMove) (backends : List BackendEntry),
      FreeRun BackendMove.step [] moves backends →
        ∀ counter, (⟨backends, counter⟩ : Balancer).Safe := by
  intro h
  have hexec : exec BackendMove.step [] heavyBackends = some
      [⟨"a", ⟨.v4 ⟨10, 0, 0, 1⟩, 80, 0⟩, 2 ^ 31, true, 0, 0⟩,
        ⟨"b", ⟨.v4 ⟨10, 0, 0, 2⟩, 80, 0⟩, 2 ^ 31, true, 0, 0⟩] := rfl
  exact (h _ _ (freeRun_of_exec hexec) 0).divisor (by decide)

namespace Balancer

variable {backends : List BackendEntry} {counter : UInt64} {i : Nat} {b : BackendEntry}

theorem selections_eq (hfits : healthyWeight backends < 2 ^ 32)
    (hhealthy : healthyBackends backends ≠ []) {n : Nat} (hcounter : counter.toNat + n ≤ 2 ^ 64) :
    (selections n ⟨backends, counter⟩).map some = (List.range n).map fun k =>
      (WeightedCycle.pick (entries (healthyBackends backends))
        ((counter.toNat + k) % healthyWeight backends)).map Selected.chosen := by
  induction n generalizing counter with
  | zero => rfl
  | succ n ih =>
      obtain ⟨i, hpick, hselected⟩ :=
        selectBackend_of_divisor counter (divisor_ne_zero hfits hhealthy)
      rw [Nat.mod_eq_of_lt hfits] at hpick
      have hnext : n ≠ 0 → (counter + 1).toNat = counter.toNat + 1 := by
        intro hn
        rw [UInt64.toNat_add, UInt64.toNat_one]
        exact Nat.mod_eq_of_lt (by omega)
      rw [selections, hselected, List.map_cons, List.range_succ_eq_map, List.map_cons, List.map_map,
        Nat.add_zero, hpick]
      congr 1
      rcases Nat.eq_zero_or_pos n with rfl | hn
      · rfl
      · rw [ih (by rw [hnext hn.ne']; omega), hnext hn.ne']
        apply List.map_congr_left
        intro k _
        rw [Function.comp_apply, Nat.add_assoc, Nat.add_comm 1 k]

theorem count_selections (hfits : healthyWeight backends < 2 ^ 32)
    (hhealthy : healthyBackends backends ≠ []) {n : Nat} (hcounter : counter.toNat + n ≤ 2 ^ 64)
    (i : Nat) :
    (selections n ⟨backends, counter⟩).count (.chosen i) = Nat.count (fun k =>
      WeightedCycle.pick (entries (healthyBackends backends))
        ((counter.toNat + k) % healthyWeight backends) = some i) n := by
  rw [← List.count_map_of_injective _ some (Option.some_injective _),
    selections_eq hfits hhealthy hcounter, List.count, List.countP_map, Nat.count]
  apply List.countP_congr
  intro k _
  simp [Option.map_eq_some_iff]

/-- Over one whole cycle of the counter every healthy backend is chosen as often as its
effective weight says, and nothing else is. -/
theorem weighted_round_robin_fair (hhealthy : ∃ b ∈ backends, b.healthy = true)
    (hfits : healthyWeight backends < 2 ^ 32)
    (hcounter : counter.toNat + healthyWeight backends ≤ 2 ^ 64) :
    (∀ i b, backends[i]? = some b →
      (selections (healthyWeight backends) ⟨backends, counter⟩).count (.chosen i) =
        if b.healthy then max b.weight.toNat 1 else 0) ∧
    (∀ selected ∈ selections (healthyWeight backends) ⟨backends, counter⟩,
      ∃ i b, selected = .chosen i ∧ backends[i]? = some b ∧ b.healthy = true) ∧
    ∀ slot, ∀ p ∈ subtractions (healthyBackends backends) slot, p.2 ≤ p.1 := by
  have hne := healthyBackends_ne_nil_iff.mpr hhealthy
  refine ⟨?_, ?_, fun slot p hp => le_of_mem_subtractions hp⟩
  · intro i b hb
    rw [count_selections hfits hne hcounter, healthyWeight_eq]
    by_cases hup : b.healthy = true
    · rw [if_pos hup, ← toNat_effectiveWeight]
      apply WeightedCycle.count_cycle (nodup_keys backends)
      exact List.mem_map_of_mem (mem_healthyBackends.mpr ⟨hb, hup⟩)
    · rw [if_neg hup]
      have hkey : i ∉ (entries (healthyBackends backends)).map Prod.fst := by
        rw [mem_keys_iff]
        rintro ⟨b', hb', hup'⟩
        obtain rfl : b' = b := Option.some.inj (hb'.symm.trans hb)
        exact hup hup'
      rw [WeightedCycle.count_residues (p := fun slot =>
        WeightedCycle.pick (entries (healthyBackends backends)) slot = some i)]
      exact WeightedCycle.count_pick_of_notMem hkey _
  · intro selected hselected
    have hmem := List.mem_map_of_mem (f := some) hselected
    rw [selections_eq hfits hne hcounter, List.mem_map] at hmem
    obtain ⟨k, -, hk⟩ := hmem
    obtain ⟨i, hpick, rfl⟩ := Option.map_eq_some_iff.mp hk
    obtain ⟨b, hb, hup⟩ := mem_keys_iff.mp (WeightedCycle.mem_of_pick hpick)
    exact ⟨i, b, rfl, hb, hup⟩

/-- Weights two and zero and an unhealthy backend between them, up to the last value of the
counter. -/
theorem weighted_round_robin_fair_three :
    ∃ backends : List BackendEntry, (∃ b ∈ backends, b.healthy = true) ∧
      healthyWeight backends = 3 ∧
      (selections 3 ⟨backends, 18446744073709551613⟩).count (.chosen 0) = 2 ∧
      (selections 3 ⟨backends, 18446744073709551613⟩).count (.chosen 1) = 0 ∧
      (selections 3 ⟨backends, 18446744073709551613⟩).count (.chosen 2) = 1 := by
  let addr : SocketAddr := ⟨.v4 ⟨10, 0, 0, 1⟩, 80, 0⟩
  let backends : List BackendEntry :=
    [⟨"a", addr, 2, true, 0, 0⟩, ⟨"b", addr, 5, false, 0, 0⟩, ⟨"c", addr, 0, true, 0, 0⟩]
  have hhealthy : ∃ b ∈ backends, b.healthy = true := ⟨_, List.mem_cons_self, rfl⟩
  have hweight : healthyWeight backends = 3 := by decide
  have hcounter : (18446744073709551613 : UInt64).toNat + healthyWeight backends ≤ 2 ^ 64 := by
    decide
  obtain ⟨hcount, -, -⟩ := weighted_round_robin_fair hhealthy (by decide) hcounter
  rw [hweight] at hcount
  exact ⟨backends, hhealthy, hweight, hcount 0 _ rfl, hcount 1 _ rfl, hcount 2 _ rfl⟩

end Balancer

section Requests

variable {s : AdminState} {env : AdminEnv} {tunnelId backendId : String} {entry : TunnelEntry}

/-- The backends of a tunnel are left alone or changed by a move. -/
def BackendsMove (s s' : AdminState) (tunnelId : String) : Prop :=
  ∀ entry, s.shared.tunnels.lookup tunnelId = some entry →
    ∃ entry', s'.shared.tunnels.lookup tunnelId = some entry' ∧
      (entry'.backends = entry.backends ∨
        ∃ move, BackendMove.step entry.backends move = some entry'.backends)

theorem backendsMove_self (s : AdminState) (tunnelId : String) : BackendsMove s s tunnelId := by
  intro entry h
  exact ⟨entry, h, .inl rfl⟩

theorem backendsMove_setEntry {move : BackendMove} {backends : List BackendEntry}
    (hentry : s.shared.tunnels.lookup tunnelId = some entry)
    (hstep : BackendMove.step entry.backends move = some backends) :
    BackendsMove s (s.setEntry tunnelId { entry with backends := backends }) tunnelId := by
  intro entry' hentry'
  obtain rfl : entry = entry' := Option.some.inj (hentry.symm.trans hentry')
  exact ⟨_, AList.lookup_insert _, .inr ⟨move, hstep⟩⟩

theorem backendsMove_onTunnel {body : TunnelEntry → Reply × AdminState}
    (h : ∀ entry, s.shared.tunnels.lookup tunnelId = some entry →
      BackendsMove s (body entry).2 tunnelId) :
    BackendsMove s (s.onTunnel tunnelId body).2 tunnelId := by
  intro entry hentry
  rw [AdminState.onTunnel, hentry]
  exact h entry hentry entry hentry

theorem addBackend_moves (req : AddBackendReq) :
    BackendsMove s (s.addBackend env tunnelId req).2 tunnelId := by
  unfold AdminState.addBackend
  split
  · exact backendsMove_self s tunnelId
  · rename_i addr _
    apply backendsMove_onTunnel
    intro entry hentry
    have hstep : BackendMove.step entry.backends (.add env.freshId addr req.weight) =
        some (entry.backends ++ [AdminState.newBackend env addr (max 1 req.weight)]) := rfl
    exact backendsMove_setEntry hentry hstep

theorem removeBackend_moves :
    BackendsMove s (s.removeBackend tunnelId backendId).2 tunnelId := by
  apply backendsMove_onTunnel
  intro entry hentry
  dsimp only
  split
  · exact backendsMove_self s tunnelId
  · have hstep : BackendMove.step entry.backends (.remove backendId) =
        some (entry.backends.filter fun b => b.id != backendId) := rfl
    exact backendsMove_setEntry hentry hstep

theorem health_of_updateFirst {probe : BackendEntry → Bool} {backends backends' : List BackendEntry}
    (h : updateFirst (fun b => b.id == backendId) (fun b => { b with healthy := probe b })
      backends = some backends') :
    ∃ healthy, BackendMove.step backends (.health backendId healthy) = some backends' := by
  obtain ⟨front, b, rest, hb, hfront, rfl, rfl⟩ := updateFirst_eq_some_iff.mp h
  exact ⟨probe b, updateFirst_eq_some_iff.mpr ⟨front, b, rest, hb, hfront, rfl, rfl⟩⟩

theorem forceHealthCheck_moves :
    BackendsMove s (s.forceHealthCheck env tunnelId backendId).2 tunnelId := by
  apply backendsMove_onTunnel
  intro entry hentry
  split
  · exact backendsMove_self s tunnelId
  · rename_i backends hupdated
    obtain ⟨healthy, hstep⟩ := health_of_updateFirst hupdated
    exact backendsMove_setEntry hentry hstep

end Requests

end Seamless.Relay
