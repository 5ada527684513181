import Mathlib.Data.Option.Basic
import Mathlib.Tactic.Common

/-!
Owners that record themselves in a table under a name and clear that name when
they leave, without looking at whose record is there. The table belongs to
everybody, so an owner's record survives only as long as nobody else enters
under the same name. `Exclusive` is that discipline; the rules below say which
steps keep it.
-/

namespace Seamless.Library

/-- `tenant o` is the name under which `o` may still write or clear a record,
`recorded o` says that `o` has written its record and not had it taken away,
and `table k o` that the record of `o` stands under `k`. -/
structure Tenancy (K O : Type*) where
  tenant : O → Option K
  recorded : O → Prop
  table : K → O → Prop

namespace Tenancy

variable {K O : Type*} {t t' : Tenancy K O}

/-- No name has two tenants, and a recorded tenant is found under its name. -/
structure Exclusive (t : Tenancy K O) : Prop where
  unique : ∀ {o o' k}, t.tenant o = some k → t.tenant o' = some k → o = o'
  present : ∀ {o k}, t.tenant o = some k → t.recorded o → t.table k o

/-- Under the name of a tenant stands no record but its own. -/
def Sole (t : Tenancy K O) : Prop :=
  ∀ o o' k, t.tenant o = some k → t.table k o' → o' = o

/-- A step of one owner keeps exclusivity when a name it newly holds had no
tenant, its own record is in place, and the records of the others survive. -/
theorem Exclusive.step (h : Exclusive t) (actor : O)
    (htenant : ∀ o, o ≠ actor → t'.tenant o = t.tenant o)
    (hrecorded : ∀ o, o ≠ actor → t'.recorded o → t.recorded o)
    (hentry : ∀ k, t'.tenant actor = some k →
      t.tenant actor = some k ∨ ∀ o, o ≠ actor → t.tenant o ≠ some k)
    (hown : ∀ k, t'.tenant actor = some k → t'.recorded actor → t'.table k actor)
    (hothers : ∀ o k, o ≠ actor → t.tenant o = some k → t.recorded o → t.table k o →
      t'.table k o) :
    Exclusive t' where
  unique := by
    intro o o' k ho ho'
    by_cases hoa : o = actor <;> by_cases hoa' : o' = actor
    · rw [hoa, hoa']
    · subst hoa
      rw [htenant o' hoa'] at ho'
      rcases hentry k ho with hsame | hfree
      · exact h.unique hsame ho'
      · exact absurd ho' (hfree o' hoa')
    · subst hoa'
      rw [htenant o hoa] at ho
      rcases hentry k ho' with hsame | hfree
      · exact h.unique ho hsame
      · exact absurd ho (hfree o hoa)
    · rw [htenant o hoa] at ho
      rw [htenant o' hoa'] at ho'
      exact h.unique ho ho'
  present := by
    intro o k ho hrec
    by_cases hoa : o = actor
    · subst hoa
      exact hown k ho hrec
    · rw [htenant o hoa] at ho
      have hrec' := hrecorded o hoa hrec
      exact hothers o k hoa ho hrec' (h.present ho hrec')

/-- A step that no owner takes keeps exclusivity when it makes no tenants and
removes only records whose owners it marks. -/
theorem Exclusive.evict (h : Exclusive t)
    (htenant : ∀ o k, t'.tenant o = some k → t.tenant o = some k)
    (hrecorded : ∀ o, t'.recorded o → t.recorded o)
    (hsurvive : ∀ o k, t'.recorded o → t.table k o → t'.table k o) : Exclusive t' where
  unique := fun ho ho' => h.unique (htenant _ _ ho) (htenant _ _ ho')
  present := by
    intro o k ho hrec
    exact hsurvive o k hrec (h.present (htenant o k ho) (hrecorded o hrec))

theorem Sole.step (h : Sole t) (actor : O)
    (htenant : ∀ o, o ≠ actor → t'.tenant o = t.tenant o)
    (hown : ∀ k o, t'.tenant actor = some k → t'.table k o → o = actor)
    (hothers : ∀ o o' k, o ≠ actor → t.tenant o = some k → t'.table k o' → t.table k o') :
    Sole t' := by
  intro o o' k ho htable
  by_cases hoa : o = actor
  · subst hoa
    exact hown k o' ho htable
  · rw [htenant o hoa] at ho
    exact h o o' k ho (hothers o o' k hoa ho htable)

theorem Sole.evict (h : Sole t)
    (htenant : ∀ o k, t'.tenant o = some k → t.tenant o = some k)
    (htable : ∀ k o, t'.table k o → t.table k o) : Sole t' := by
  intro o o' k ho hrecord
  exact h o o' k (htenant o k ho) (htable k o' hrecord)

end Tenancy

end Seamless.Library
