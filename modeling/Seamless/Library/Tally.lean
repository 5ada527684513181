import Mathlib.Algebra.Ring.Nat
import Mathlib.Data.List.Basic
import Mathlib.Tactic.Common

/-!
Counters beside a list of agents of which one moves at a time. A counter that is moved when
the moving agent enters or leaves a class has the number of agents in the class; machine
counters have it up to their wrap-around.
-/

namespace Seamless.Library.Tally

variable {α : Type*} {p : α → Bool} {agents : List α} {i : Nat} {a b : α} {gauge : UInt64}

theorem countP_set_add (hget : agents[i]? = some a) (b : α) :
    (agents.set i b).countP p + (p a).toNat = agents.countP p + (p b).toNat := by
  obtain ⟨hlt, hget⟩ := List.getElem?_eq_some_iff.mp hget
  have hcount : p a = true → 0 < agents.countP p := fun hpa =>
    List.countP_pos_iff.mpr ⟨a, hget ▸ List.getElem_mem hlt, hpa⟩
  rw [List.countP_set hlt, hget]
  cases hpa : p a with
  | false => cases p b <;> simp
  | true =>
      have hpos := hcount hpa
      cases p b <;> simp only [if_true, Bool.false_eq_true, if_false, Bool.toNat_true,
        Bool.toNat_false] <;> omega

theorem countP_concat (p : α → Bool) (agents : List α) (a : α) :
    (agents ++ [a]).countP p = agents.countP p + (p a).toNat := by
  rw [List.countP_append]
  cases hpa : p a <;> simp [hpa]

theorem sum_map_set_add (f : α → Nat) (hget : agents[i]? = some a) (b : α) :
    ((agents.set i b).map f).sum + f a = (agents.map f).sum + f b := by
  induction agents generalizing i with
  | nil => cases hget
  | cons head tail ih =>
      cases i with
      | zero =>
          obtain rfl : head = a := by simpa using hget
          simp only [List.set_cons_zero, List.map_cons, List.sum_cons]
          omega
      | succ i =>
          have htail := ih (i := i) (by simpa using hget)
          simp only [List.set_cons_succ, List.map_cons, List.sum_cons]
          omega

theorem ofNat_succ (n : Nat) : UInt64.ofNat (n + 1) = UInt64.ofNat n + 1 := by
  rw [UInt64.ofNat_add]
  rfl

theorem gauge_enter (hgauge : gauge = UInt64.ofNat (agents.countP p)) (hget : agents[i]? = some a)
    (ha : p a = false) (hb : p b = true) :
    gauge + 1 = UInt64.ofNat ((agents.set i b).countP p) := by
  have hset := countP_set_add (p := p) hget b
  rw [ha, hb, Bool.toNat_false, Bool.toNat_true, Nat.add_zero] at hset
  rw [hset, ofNat_succ, hgauge]

theorem gauge_leave (hgauge : gauge = UInt64.ofNat (agents.countP p)) (hget : agents[i]? = some a)
    (ha : p a = true) (hb : p b = false) :
    gauge - 1 = UInt64.ofNat ((agents.set i b).countP p) := by
  have hset := countP_set_add (p := p) hget b
  rw [ha, hb, Bool.toNat_false, Bool.toNat_true, Nat.add_zero] at hset
  have hone : agents.countP p = (agents.set i b).countP p + 1 := hset.symm
  rw [hgauge, hone, ofNat_succ, UInt64.add_sub_cancel]

end Seamless.Library.Tally
