import Mathlib.Algebra.BigOperators.Group.List.Basic
import Mathlib.Algebra.Ring.Nat
import Mathlib.Data.Nat.Count

/-!
Weighted choice by residue: the slots below the total weight are dealt out in the order of
the entries, as many to each as its weight says, and a counter visits them in turn.
-/

namespace Seamless.Library.WeightedCycle

variable {κ : Type*}

def total (entries : List (κ × ℕ)) : ℕ := (entries.map Prod.snd).sum

/-- The key to which the slot belongs. -/
def pick : List (κ × ℕ) → ℕ → Option κ
  | [], _ => none
  | (key, weight) :: entries, slot =>
      if slot < weight then some key else pick entries (slot - weight)

variable {entries : List (κ × ℕ)} {key : κ} {weight slot : ℕ}

@[simp]
theorem total_cons (entry : κ × ℕ) (entries : List (κ × ℕ)) :
    total (entry :: entries) = entry.2 + total entries := by
  simp [total]

theorem exists_pick (h : slot < total entries) : ∃ key, pick entries slot = some key := by
  induction entries generalizing slot with
  | nil => simp [total] at h
  | cons entry entries ih =>
      rw [total_cons] at h
      by_cases hslot : slot < entry.2
      · exact ⟨entry.1, if_pos hslot⟩
      · have hrest : slot - entry.2 < total entries := by omega
        obtain ⟨key, hkey⟩ := ih hrest
        exact ⟨key, (if_neg hslot).trans hkey⟩

theorem mem_of_pick (h : pick entries slot = some key) : key ∈ entries.map Prod.fst := by
  induction entries generalizing slot with
  | nil => cases h
  | cons entry entries ih =>
      rw [List.map_cons, List.mem_cons]
      rw [pick] at h
      split at h
      · exact .inl (Option.some.inj h).symm
      · exact .inr (ih h)

section Counting

variable {p q : ℕ → Prop} [DecidablePred p] [DecidablePred q]

theorem count_congr {n : ℕ} (h : ∀ k < n, p k ↔ q k) : Nat.count p n = Nat.count q n := by
  apply List.countP_congr
  intro k hk
  simpa using h k (List.mem_range.mp hk)

theorem count_residues (start period : ℕ) :
    Nat.count (fun k => p ((start + k) % period)) period = Nat.count p period := by
  have hfirst := Nat.count_add (fun k => p (k % period)) start period
  have hsecond := Nat.count_add (fun k => p (k % period)) period start
  simp only [Nat.add_mod_left] at hsecond
  have hresidues : Nat.count (fun k => p (k % period)) period = Nat.count p period := by
    apply count_congr
    intro k hk
    rw [Nat.mod_eq_of_lt hk]
  rw [Nat.add_comm period start] at hsecond
  omega

end Counting

section Fairness

variable [DecidableEq κ]

theorem count_pick_of_notMem (h : key ∉ entries.map Prod.fst) (n : ℕ) :
    Nat.count (fun slot => pick entries slot = some key) n = 0 := by
  rw [Nat.count_eq_card_filter_range, Finset.card_eq_zero, Finset.filter_eq_empty_iff]
  intro slot _ hpick
  exact h (mem_of_pick hpick)

theorem count_pick (hkeys : (entries.map Prod.fst).Nodup) (hmem : (key, weight) ∈ entries) :
    Nat.count (fun slot => pick entries slot = some key) (total entries) = weight := by
  induction entries with
  | nil => cases hmem
  | cons entry entries ih =>
      rw [List.map_cons, List.nodup_cons] at hkeys
      have hbelow : Nat.count (fun slot => pick (entry :: entries) slot = some key) entry.2 =
          Nat.count (fun _ => entry.1 = key) entry.2 := by
        apply count_congr
        intro slot hslot
        rw [pick, if_pos hslot, Option.some.injEq]
      have habove : Nat.count (fun slot => pick (entry :: entries) (entry.2 + slot) = some key)
          (total entries) =
            Nat.count (fun slot => pick entries slot = some key) (total entries) := by
        apply count_congr
        intro slot _
        rw [pick, if_neg (by omega), Nat.add_sub_cancel_left]
      rw [total_cons, Nat.count_add, hbelow, habove]
      rcases List.mem_cons.mp hmem with rfl | hrest
      · rw [count_pick_of_notMem hkeys.1, Nat.count_of_forall fun _ _ => rfl, Nat.add_zero]
      · have hne : entry.1 ≠ key := by
          rintro rfl
          exact hkeys.1 (List.mem_map.mpr ⟨_, hrest, rfl⟩)
        rw [ih hkeys.2 hrest, Nat.count_of_forall_not fun _ _ => hne, Nat.zero_add]

/-- Over one whole cycle from any start. -/
theorem count_cycle (hkeys : (entries.map Prod.fst).Nodup) (hmem : (key, weight) ∈ entries)
    (start : ℕ) :
    Nat.count (fun k => pick entries ((start + k) % total entries) = some key) (total entries) =
      weight :=
  (count_residues start (total entries)).trans (count_pick hkeys hmem)

end Fairness

end Seamless.Library.WeightedCycle
