import Mathlib.Data.List.AList

/-!
Finite maps as association lists with distinct keys. Mathlib provides lookup,
insertion and erasure; this module adds restriction to the entries that satisfy
a predicate, and counting.
-/

namespace Seamless.Library

variable {κ ν : Type*}

abbrev KeyedTable (κ ν : Type*) := AList fun _ : κ => ν

namespace KeyedTable

def values (t : KeyedTable κ ν) : List ν := t.entries.map Sigma.snd

def size (t : KeyedTable κ ν) : Nat := t.entries.length

def filter (p : κ → ν → Bool) (t : KeyedTable κ ν) : KeyedTable κ ν where
  entries := t.entries.filter fun e => p e.1 e.2
  nodupKeys := t.nodupKeys.sublist List.filter_sublist

def count (p : ν → Bool) (t : KeyedTable κ ν) : Nat := (values t).countP p

theorem size_eq_count (t : KeyedTable κ ν) : size t = count (fun _ => true) t := by
  simp [size, count, values]

theorem count_le_of_sublist {t t' : KeyedTable κ ν} (p : ν → Bool)
    (h : t'.entries.Sublist t.entries) : count p t' ≤ count p t :=
  (h.map fun e : Sigma fun _ : κ => ν => e.2).countP_le

theorem values_filter (q : ν → Bool) (t : KeyedTable κ ν) :
    values (filter (fun _ => q) t) = (values t).filter q := by
  simp only [values, filter, List.filter_map]
  rfl

theorem count_filter_of_forall {p q : ν → Bool} {t : KeyedTable κ ν}
    (h : ∀ v ∈ values t, p v = true → q v = true) :
    count p (filter (fun _ => q) t) = count p t := by
  rw [count, values_filter, List.countP_filter, count]
  apply List.countP_congr
  intro v hv
  simpa using h v hv

theorem filter_values_ne_nil {p : ν → Bool} {t : KeyedTable κ ν} {m : Nat}
    (h : 0 < count p t % m) : (values t).filter p ≠ [] := by
  intro hnone
  rw [count, List.countP_eq_length_filter, hnone] at h
  simp at h

variable [DecidableEq κ]

theorem mem_values {t : KeyedTable κ ν} {v : ν} :
    v ∈ values t ↔ ∃ k, t.lookup k = some v := by
  simp only [values, List.mem_map]
  constructor
  · rintro ⟨⟨k, v⟩, hmem, rfl⟩
    exact ⟨k, AList.mem_lookup_iff.mpr hmem⟩
  · rintro ⟨k, hk⟩
    exact ⟨⟨k, v⟩, AList.mem_lookup_iff.mp hk, rfl⟩

theorem lookup_filter (p : κ → ν → Bool) (t : KeyedTable κ ν) (k : κ) :
    (filter p t).lookup k = (t.lookup k).filter (p k) := by
  apply Option.ext
  intro v
  change v ∈ (filter p t).lookup k ↔ _
  rw [AList.mem_lookup_iff, Option.filter_eq_some_iff]
  simp only [filter, List.mem_filter]
  rw [← AList.mem_lookup_iff]
  rfl

theorem count_erase_le (p : ν → Bool) (t : KeyedTable κ ν) (k : κ) :
    count p (t.erase k) ≤ count p t :=
  count_le_of_sublist p (List.kerase_sublist k t.entries)

theorem count_insert_le (p : ν → Bool) (t : KeyedTable κ ν) (k : κ) (v : ν) :
    count p (t.insert k v) ≤ count p t + if p v then 1 else 0 := by
  have herase : ((t.entries.kerase k).map Sigma.snd).countP p ≤ (values t).countP p :=
    count_erase_le p t k
  simp only [count, values, AList.entries_insert, List.map_cons, List.countP_cons] at herase ⊢
  omega

end KeyedTable

end Seamless.Library
