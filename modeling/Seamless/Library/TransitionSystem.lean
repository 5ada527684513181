import Mathlib.Data.List.Infix
import Mathlib.Tactic.Common

/-!
Runs of a labelled transition function. A label carries everything that the
environment decides, so a run is a list of labels; `guard` restricts the labels
that may be taken in a state.
-/

namespace Seamless.Library.TransitionSystem

variable {σ ℓ : Type*} (step : σ → ℓ → Option σ)

/-- Take the labels in order, or fail at the first one that is not enabled. -/
def exec : σ → List ℓ → Option σ
  | s, [] => some s
  | s, a :: as => (step s a).bind fun t => exec t as

/-- `Run step guard s as t`: the labels `as` lead from `s` to `t`, each of them
meeting `guard` in the state in which it is taken. -/
inductive Run (guard : σ → ℓ → Prop) (s : σ) : List ℓ → σ → Prop
  | nil : Run guard s [] s
  | snoc {as : List ℓ} {t u : σ} {a : ℓ} (init : Run guard s as t) (ok : guard t a)
      (last : step t a = some u) : Run guard s (as ++ [a]) u

abbrev FreeRun := Run step fun _ _ => True

variable {step} {guard : σ → ℓ → Prop} {s t u : σ} {as : List ℓ}

/-- An invariant that holds at the start and survives every guarded step holds
in every state a guarded run reaches. -/
theorem Run.invariant {I : σ → Prop} (hrun : Run step guard s as t) (hstart : I s)
    (hstep : ∀ t a u, I t → guard t a → step t a = some u → I u) : I t := by
  induction hrun with
  | nil => exact hstart
  | snoc _ hguard hlast ih => exact hstep _ _ _ ih hguard hlast

theorem Run.mono {guard' : σ → ℓ → Prop} (hrun : Run step guard s as t)
    (h : ∀ t a, guard t a → guard' t a) : Run step guard' s as t := by
  induction hrun with
  | nil => exact .nil
  | snoc _ hguard hlast ih => exact .snoc ih (h _ _ hguard) hlast

theorem Run.free (hrun : Run step guard s as t) : FreeRun step s as t :=
  hrun.mono fun _ _ _ => trivial

theorem Run.guarded_iff {p : ℓ → Prop} (hrun : FreeRun step s as t) :
    Run step (fun _ a => p a) s as t ↔ ∀ a ∈ as, p a := by
  constructor
  · intro hguarded
    clear hrun
    induction hguarded with
    | nil => simp
    | snoc _ hguard _ ih =>
        intro a ha
        rcases List.mem_append.mp ha with hbefore | hlast
        · exact ih a hbefore
        · rw [List.mem_singleton.mp hlast]
          exact hguard
  · intro hall
    induction hrun with
    | nil => exact .nil
    | snoc _ _ hlast ih =>
        have hinit := ih fun a ha => hall a (List.mem_append_left _ ha)
        exact .snoc hinit (hall _ (by simp)) hlast

theorem Run.append {bs : List ℓ} (hfirst : Run step guard s as t)
    (hsecond : Run step guard t bs u) : Run step guard s (as ++ bs) u := by
  induction hsecond with
  | nil => simpa using hfirst
  | snoc _ hguard hlast ih =>
      rw [← List.append_assoc]
      exact .snoc ih hguard hlast

theorem freeRun_of_exec (h : exec step s as = some t) : FreeRun step s as t := by
  induction as generalizing s with
  | nil =>
      cases h
      exact .nil
  | cons a as ih =>
      simp only [exec, Option.bind_eq_some_iff] at h
      obtain ⟨r, hfirst, hrest⟩ := h
      have hhead : FreeRun step s [a] r := by
        simpa using Run.snoc (.nil : FreeRun step s [] s) trivial hfirst
      simpa using hhead.append (ih hrest)

theorem exists_freeRun {β : Type*} {f : σ → β} {b : β} (h : (exec step s as).map f = some b) :
    ∃ t, FreeRun step s as t ∧ f t = b := by
  obtain ⟨t, ht, hf⟩ := Option.map_eq_some_iff.mp h
  exact ⟨t, freeRun_of_exec ht, hf⟩

theorem exec_append (as bs : List ℓ) :
    exec step s (as ++ bs) = (exec step s as).bind fun t => exec step t bs := by
  induction as generalizing s with
  | nil => rfl
  | cons a as ih =>
      cases h : step s a <;> simp [exec, h, ih]

theorem Run.exec (hrun : Run step guard s as t) : exec step s as = some t := by
  induction hrun with
  | nil => rfl
  | snoc _ _ hlast ih => simp [exec_append, ih, TransitionSystem.exec, hlast]

def execGuarded (step : σ → ℓ → Option σ) (guard : σ → ℓ → Prop)
    [∀ s a, Decidable (guard s a)] : σ → List ℓ → Option σ
  | s, [] => some s
  | s, a :: as =>
      if guard s a then (step s a).bind fun t => execGuarded step guard t as else none

theorem run_of_execGuarded [∀ s a, Decidable (guard s a)]
    (h : execGuarded step guard s as = some t) : Run step guard s as t := by
  induction as generalizing s with
  | nil =>
      cases h
      exact .nil
  | cons a as ih =>
      simp only [execGuarded] at h
      split at h
      · rename_i hguard
        obtain ⟨r, hfirst, hrest⟩ := Option.bind_eq_some_iff.mp h
        have hhead : Run step guard s [a] r := by
          simpa using Run.snoc (.nil : Run step guard s [] s) hguard hfirst
        simpa using hhead.append (ih hrest)
      · cases h

theorem exists_run [∀ s a, Decidable (guard s a)] {β : Type*} {f : σ → β} {b : β}
    (h : (execGuarded step guard s as).map f = some b) :
    ∃ t, Run step guard s as t ∧ f t = b := by
  obtain ⟨t, ht, hf⟩ := Option.map_eq_some_iff.mp h
  exact ⟨t, run_of_execGuarded ht, hf⟩

/-- `P` holds in every state that the run passes through. -/
def HoldsAlong (step : σ → ℓ → Option σ) (P : σ → Prop) (s : σ) (as : List ℓ) : Prop :=
  ∀ bs, bs <+: as → ∀ t, exec step s bs = some t → P t

theorem Run.holdsAlong {P : σ → Prop} (hrun : Run step guard s as t)
    (hP : ∀ bs u, Run step guard s bs u → P u) : HoldsAlong step P s as := by
  induction hrun with
  | nil =>
      intro bs hbs u hu
      obtain rfl := List.prefix_nil.mp hbs
      cases hu
      exact hP [] s .nil
  | @snoc as t u a hinit hguard hlast ih =>
      intro bs hbs v hv
      rcases List.prefix_concat_iff.mp (by simpa using hbs) with rfl | hbs
      · have hrun := Run.snoc hinit hguard hlast
        obtain rfl : u = v := Option.some.inj (hrun.exec.symm.trans hv)
        exact hP _ u hrun
      · exact ih bs hbs v hv

theorem Run.guarded_of_holdsAlong {guard' : σ → ℓ → Prop} {P : σ → Prop}
    (hrun : Run step guard s as t) (halong : HoldsAlong step P s as)
    (hneeded : ∀ bs t a u, Run step guard s bs t → guard t a → step t a = some u → P t → P u →
      guard' t a) : Run step guard' s as t := by
  induction hrun with
  | nil => exact .nil
  | @snoc as t u a hinit hguard hlast ih =>
      have hguarded := ih fun bs hbs => halong bs (hbs.trans (List.prefix_append _ _))
      have hPt : P t := halong as (List.prefix_append _ _) t hinit.exec
      have hPu : P u := halong _ List.prefix_rfl u (Run.snoc hinit hguard hlast).exec
      exact .snoc hguarded (hneeded as t a u hinit hguard hlast hPt hPu) hlast

/-- When a guard says exactly which steps keep `P`, the runs along which `P`
holds are exactly the guarded ones. `I` is whatever else is known of the
reachable states. -/
theorem Run.holdsAlong_iff {I P : σ → Prop} (hrun : FreeRun step s as t)
    (hI : I s) (hIstep : ∀ t a u, I t → step t a = some u → I u) (hP : P s)
    (hexact : ∀ t a u, I t → P t → step t a = some u → (P u ↔ guard t a)) :
    HoldsAlong step P s as ↔ Run step guard s as t := by
  constructor
  · intro hall
    refine hrun.guarded_of_holdsAlong hall fun bs t a u hinit _ hstep hPt hPu => ?_
    have hIt : I t := hinit.invariant hI fun t a u ht _ h => hIstep t a u ht h
    exact (hexact t a u hIt hPt hstep).mp hPu
  · intro hguarded
    refine hguarded.holdsAlong fun bs u hbs => ?_
    have hboth : I u ∧ P u := by
      refine hbs.invariant (I := fun u => I u ∧ P u) ⟨hI, hP⟩ ?_
      rintro t a u ⟨hIt, hPt⟩ hguard hstep
      exact ⟨hIstep t a u hIt hstep, (hexact t a u hIt hPt hstep).mpr hguard⟩
    exact hboth.2

theorem Run.invariant_along {I P : σ → Prop} (hrun : Run step guard s as t)
    (halong : HoldsAlong step P s as) (hstart : I s)
    (hstep : ∀ t a u, I t → guard t a → P u → step t a = some u → I u) : I t := by
  induction hrun with
  | nil => exact hstart
  | @snoc as t u a hinit hguard hlast ih =>
      have ht := ih fun bs hbs => halong bs (hbs.trans (List.prefix_append _ _))
      have hu := halong _ List.prefix_rfl u (Run.snoc hinit hguard hlast).exec
      exact hstep t a u ht hguard hu hlast

/-- The run `as` from `s` passes through `t`. -/
def Visits (step : σ → ℓ → Option σ) (s : σ) (as : List ℓ) (t : σ) : Prop :=
  ∃ bs, bs <+: as ∧ exec step s bs = some t

theorem visits_start (s : σ) (as : List ℓ) : Visits step s as s :=
  ⟨[], List.nil_prefix, rfl⟩

theorem Run.visits (hrun : Run step guard s as t) : Visits step s as t :=
  ⟨as, List.prefix_rfl, hrun.exec⟩

theorem Visits.append (h : Visits step s as t) (bs : List ℓ) : Visits step s (as ++ bs) t := by
  obtain ⟨cs, hcs, hexec⟩ := h
  exact ⟨cs, hcs.trans (List.prefix_append _ _), hexec⟩

theorem Visits.invariant {I : σ → Prop} (h : Visits step s as t) (hstart : I s)
    (hstep : ∀ t a u, I t → step t a = some u → I u) : I t := by
  obtain ⟨bs, -, hexec⟩ := h
  exact (freeRun_of_exec hexec).invariant hstart fun t a u ht _ h => hstep t a u ht h

theorem Visits.of_all {p : σ → Bool} (h : Visits step s as t)
    (hall : (as.inits.all fun bs => (exec step s bs).all p) = true) : p t = true := by
  obtain ⟨bs, hbs, hexec⟩ := h
  have hp := List.all_eq_true.mp hall bs ((List.mem_inits bs as).mpr hbs)
  rw [hexec] at hp
  exact hp

/-- In the run `as` from `s` a step was taken of which `E` holds; `E` sees the
state before the step. -/
def Occurred (step : σ → ℓ → Option σ) (E : σ → ℓ → Prop) (s : σ) (as : List ℓ) : Prop :=
  ∃ bs a cs t, as = bs ++ a :: cs ∧ exec step s bs = some t ∧ E t a

/-- The same, where `E` also sees the labels before the step. -/
def OccurredAfter (step : σ → ℓ → Option σ) (E : List ℓ → σ → ℓ → Prop) (s : σ)
    (as : List ℓ) : Prop :=
  ∃ bs a cs t, as = bs ++ a :: cs ∧ exec step s bs = some t ∧ E bs t a

section Occurred

variable {E : σ → ℓ → Prop} {F G : List ℓ → σ → ℓ → Prop} {a : ℓ}

theorem OccurredAfter.snoc (h : OccurredAfter step F s as) (a : ℓ) :
    OccurredAfter step F s (as ++ [a]) := by
  obtain ⟨cs, b, ds, t, rfl, hexec, hevent⟩ := h
  exact ⟨cs, b, ds ++ [a], t, by simp, hexec, hevent⟩

theorem OccurredAfter.mono (h : OccurredAfter step F s as) (hmono : ∀ bs t a, F bs t a → G bs t a) :
    OccurredAfter step G s as := by
  obtain ⟨bs, a, cs, t, has, hexec, hevent⟩ := h
  exact ⟨bs, a, cs, t, has, hexec, hmono bs t a hevent⟩

theorem Run.occurredAfter_last (hrun : Run step guard s as t) (hevent : F as t a) :
    OccurredAfter step F s (as ++ [a]) :=
  ⟨as, a, [], t, rfl, hrun.exec, hevent⟩

theorem not_occurred_nil : ¬ Occurred step E s [] := by
  rintro ⟨bs, a, cs, t, hnil, -⟩
  simp at hnil

theorem Occurred.append (h : Occurred step E s as) (bs : List ℓ) :
    Occurred step E s (as ++ bs) := by
  obtain ⟨cs, b, ds, t, rfl, hexec, hevent⟩ := h
  exact ⟨cs, b, ds ++ bs, t, by simp, hexec, hevent⟩

theorem Occurred.snoc (h : Occurred step E s as) (a : ℓ) : Occurred step E s (as ++ [a]) :=
  h.append [a]

theorem Run.occurred_last (hrun : Run step guard s as t) (hevent : E t a) :
    Occurred step E s (as ++ [a]) :=
  ⟨as, a, [], t, rfl, hrun.exec, hevent⟩

theorem Run.occurred_snoc_iff (hrun : Run step guard s as t) :
    Occurred step E s (as ++ [a]) ↔ Occurred step E s as ∨ E t a := by
  constructor
  · rintro ⟨bs, b, cs, r, has, hexec, hevent⟩
    rcases List.eq_nil_or_concat cs with rfl | ⟨cs, c, rfl⟩
    · obtain ⟨rfl, hlast⟩ := List.append_inj' has rfl
      obtain rfl : a = b := by simpa using hlast
      obtain rfl : t = r := Option.some.inj (hrun.exec.symm.trans hexec)
      exact .inr hevent
    · rw [List.concat_eq_append, ← List.cons_append, ← List.append_assoc] at has
      obtain ⟨rfl, -⟩ := List.append_inj' has rfl
      exact .inl ⟨bs, b, cs, r, rfl, hexec, hevent⟩
  · rintro (hbefore | hlast)
    · exact hbefore.snoc a
    · exact hrun.occurred_last hlast

end Occurred

end Seamless.Library.TransitionSystem
