import Seamless.Library.TransitionSystem

/-!
How far a party of a transition system can get. A measure that its moves lower and no
other move raises bounds their number in every run; where some move always lowers it,
the goal is within reach.
-/

namespace Seamless.Library.TransitionSystem

variable {σ ℓ : Type*} {step : σ → ℓ → Option σ} {guard : σ → ℓ → Prop} {s t : σ} {as : List ℓ}

theorem Run.countP_add_le {own : ℓ → Bool} {μ : σ → Nat} (hrun : Run step guard s as t)
    (hstep : ∀ t a u, step t a = some u → μ u ≤ μ t)
    (hown : ∀ t a u, step t a = some u → own a = true → μ u < μ t) :
    as.countP own + μ t ≤ μ s := by
  induction hrun with
  | nil => simp
  | @snoc as t u a _ _ hlast ih =>
      rw [List.countP_append, List.countP_singleton]
      by_cases ha : own a = true
      · have hlower := hown t a u hlast ha
        rw [if_pos ha]
        omega
      · have hkept := hstep t a u hlast
        rw [if_neg ha]
        omega

/-- A goal that some move of `p` always brings closer is reached by moves of `p`. -/
theorem exists_exec_of_progress {I goal : σ → Prop} {p : ℓ → Prop} {μ : σ → Nat}
    (hprogress : ∀ s, I s → ¬ goal s → ∃ a t, p a ∧ step s a = some t ∧ I t ∧ μ t < μ s)
    (hs : I s) :
    ∃ as t, exec step s as = some t ∧ as.length ≤ μ s ∧ (∀ a ∈ as, p a) ∧ I t ∧ goal t := by
  classical
  induction hn : μ s using Nat.strong_induction_on generalizing s with
  | _ n ih =>
      by_cases hgoal : goal s
      · exact ⟨[], s, rfl, Nat.zero_le _, by simp, hs, hgoal⟩
      · obtain ⟨a, t, ha, hstep, ht, hlower⟩ := hprogress s hs hgoal
        obtain ⟨as, u, hexec, hlength, has, hu, hdone⟩ := ih (μ t) (hn ▸ hlower) ht rfl
        refine ⟨a :: as, u, ?_, ?_, ?_, hu, hdone⟩
        · rw [exec, hstep]
          exact hexec
        · rw [List.length_cons]
          omega
        · intro b hb
          rcases List.mem_cons.mp hb with rfl | hb
          · exact ha
          · exact has b hb

end Seamless.Library.TransitionSystem
