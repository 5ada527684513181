import Mathlib.Algebra.Order.BigOperators.Group.List
import Mathlib.Algebra.Order.Group.Nat
import Seamless.Library.Tally
import Seamless.Library.TransitionSystem

/-!
The latency histogram. Its counters are separate atomics, so the calls of `observe` and of
`render_prometheus` interleave at each of their statements, and a scrape may see half of an
observation. What it loads of a bucket still lies between the observations that were complete
when it began and those that were begun when it ended. The printing of what was loaded is not
modelled; it shows the sum as seconds in an `f64`.
-/

namespace Seamless.Relay

open Seamless.Library.Tally
open Seamless.Library.TransitionSystem

/-- `α` is the type of the seconds, `f64` in the code. -/
structure Histogram (α : Type) where
  bounds : List α
  buckets : List UInt64
  count : UInt64
  sumUs : UInt64

namespace Histogram

variable {α : Type}

def new (bounds : List α) : Histogram α where
  bounds := bounds
  buckets := List.replicate bounds.length 0
  count := 0
  sumUs := 0

/-- Load `k` of `render_prometheus`: the count, the sum, and then the buckets in order. -/
def load (h : Histogram α) : Nat → Option UInt64
  | 0 => some h.count
  | 1 => some h.sumUs
  | i + 2 => h.buckets[i]?

variable [LE α] [DecidableLE α]

/-- Statement `k` of `observe`: the count, the sum, and then the turns of the loop over the
bounds. `micros` is the conversion of seconds to integer microseconds. -/
def observe (micros : α → UInt64) (h : Histogram α) (secs : α) : Nat → Option (Histogram α)
  | 0 => some { h with count := h.count + 1 }
  | 1 => some { h with sumUs := h.sumUs + micros secs }
  | i + 2 => h.bounds[i]?.map fun bound =>
      if secs ≤ bound then { h with buckets := h.buckets.modify i (· + 1) } else h

/-- A call of `observe`, of which `done` statements have run. -/
structure Observation (α : Type) where
  secs : α
  done : Nat

/-- The shared histogram, the calls of `observe`, and what each call of `render_prometheus` has
loaded so far. -/
structure Shared (α : Type) where
  histogram : Histogram α
  observations : List (Observation α)
  scrapes : List (List UInt64)

inductive Move (α : Type)
  | observe (secs : α)
  | observed (call : Nat)
  | scrape
  | loaded (call : Nat)

def Shared.step (micros : α → UInt64) (s : Shared α) : Move α → Option (Shared α)
  | .observe secs => some { s with observations := s.observations ++ [⟨secs, 0⟩] }
  | .observed call => do
      let o ← s.observations[call]?
      let h ← s.histogram.observe micros o.secs o.done
      some { s with
        histogram := h
        observations := s.observations.set call { o with done := o.done + 1 } }
  | .scrape => some { s with scrapes := s.scrapes ++ [[]] }
  | .loaded call => do
      let values ← s.scrapes[call]?
      let value ← s.histogram.load values.length
      some { s with scrapes := s.scrapes.set call (values ++ [value]) }

def Shared.new (bounds : List α) : Shared α where
  histogram := Histogram.new bounds
  observations := []
  scrapes := []

/-- What an observation adds to counter `k`: one to the count, its time to the sum, and one to
the buckets whose bound it does not pass. -/
def adds (micros : α → UInt64) (bounds : List α) (secs : α) : Nat → Nat
  | 0 => 1
  | 1 => (micros secs).toNat
  | i + 2 => if bounds[i]?.any (fun bound => decide (secs ≤ bound)) then 1 else 0

/-- The part of it that counter `k` has so far. -/
def Observation.part (micros : α → UInt64) (bounds : List α) (k : Nat) (o : Observation α) :
    Nat :=
  if k < o.done then adds micros bounds o.secs k else 0

def Observation.complete (bounds : List α) (o : Observation α) : Bool :=
  decide (bounds.length + 2 ≤ o.done)

/-- What counter `k` of the histogram stands for when these were observed: their number, the
sum of their times, and for each bound the number of those that do not pass it. -/
def total (micros : α → UInt64) (bounds : List α) (observed : List α) : Nat → Nat
  | 0 => observed.length
  | 1 => (observed.map fun secs => (micros secs).toNat).sum
  | i + 2 => observed.countP fun secs => bounds[i]?.any fun bound => decide (secs ≤ bound)

/-- What counter `k` has, before it wraps around. -/
def recorded (micros : α → UInt64) (bounds : List α) (s : Shared α) (k : Nat) : Nat :=
  (s.observations.map (Observation.part micros bounds k)).sum

variable {micros : α → UInt64} {h h' : Histogram α} {bounds : List α} {secs : α} {k cell : Nat}
  {s s' t u : Shared α} {as bs : List (Move α)} {call : Nat} {o : Observation α} {v : UInt64}

theorem total_eq_sum (observed : List α) (k : Nat) :
    total micros bounds observed k = (observed.map fun secs => adds micros bounds secs k).sum := by
  match k with
  | 0 =>
      induction observed with
      | nil => rfl
      | cons secs observed ih =>
          rw [List.map_cons, List.sum_cons, ← ih, adds, Nat.add_comm]
          rfl
  | 1 => rfl
  | i + 2 =>
      induction observed with
      | nil => rfl
      | cons secs observed ih =>
          simp only [total] at ih ⊢
          rw [List.countP_cons, List.map_cons, List.sum_cons, ih, adds, Nat.add_comm]

omit [LE α] [DecidableLE α] in
theorem load_new (hcell : (Histogram.new bounds).load cell = some v) : v = 0 := by
  match cell with
  | 0 => simpa [load, Histogram.new] using hcell.symm
  | 1 => simpa [load, Histogram.new] using hcell.symm
  | i + 2 =>
      obtain ⟨hlt, hget⟩ := List.getElem?_eq_some_iff.mp hcell
      simpa [Histogram.new] using hget.symm

theorem bounds_observe (hobserve : h.observe micros secs k = some h') :
    h'.bounds = h.bounds := by
  match k with
  | 0 => cases hobserve; rfl
  | 1 => cases hobserve; rfl
  | i + 2 =>
      obtain ⟨bound, -, rfl⟩ := Option.map_eq_some_iff.mp hobserve
      split <;> rfl

theorem load_observe (hobserve : h.observe micros secs k = some h') (cell : Nat) :
    h'.load cell =
      if cell = k then (h.load cell).map (· + UInt64.ofNat (adds micros h.bounds secs k))
      else h.load cell := by
  match k with
  | 0 =>
      cases hobserve
      match cell with
      | 0 => simp [load, adds]
      | 1 => simp [load]
      | i + 2 => simp [load]
  | 1 =>
      cases hobserve
      match cell with
      | 0 => simp [load]
      | 1 => simp [load, adds]
      | i + 2 => simp [load]
  | i + 2 =>
      obtain ⟨bound, hbound, rfl⟩ := Option.map_eq_some_iff.mp hobserve
      by_cases hle : secs ≤ bound
      · match cell with
        | 0 => simp [load, hle]
        | 1 => simp [load, hle]
        | j + 2 =>
            by_cases hij : j = i
            · subst hij
              simp [load, hle, adds, hbound]
            · simp [load, hle, hij, Ne.symm hij]
      · simp [hle, adds, hbound]

/-! ### One step -/

theorem Shared.step_cases {a : Move α} (hstep : s.step micros a = some s') :
    (s'.histogram = s.histogram ∧ s'.observations = s.observations) ∨
    (∃ secs, s'.histogram = s.histogram ∧
      s'.observations = s.observations ++ [⟨secs, 0⟩] ∧ s'.scrapes = s.scrapes) ∨
    ∃ call o, s.observations[call]? = some o ∧
      s.histogram.observe micros o.secs o.done = some s'.histogram ∧
      s'.observations = s.observations.set call { o with done := o.done + 1 } ∧
      s'.scrapes = s.scrapes := by
  cases a with
  | observe secs =>
      cases hstep
      exact .inr (.inl ⟨secs, rfl, rfl, rfl⟩)
  | observed call =>
      obtain ⟨o, hget, hstep⟩ := Option.bind_eq_some_iff.mp hstep
      obtain ⟨h, hobserve, hstep⟩ := Option.bind_eq_some_iff.mp hstep
      cases hstep
      exact .inr (.inr ⟨call, o, hget, hobserve, rfl, rfl⟩)
  | scrape =>
      cases hstep
      exact .inl ⟨rfl, rfl⟩
  | loaded call =>
      obtain ⟨values, -, hstep⟩ := Option.bind_eq_some_iff.mp hstep
      obtain ⟨value, -, hstep⟩ := Option.bind_eq_some_iff.mp hstep
      cases hstep
      exact .inl ⟨rfl, rfl⟩

theorem part_fresh (secs : α) : (⟨secs, 0⟩ : Observation α).part micros bounds k = 0 := by
  simp [Observation.part]

theorem part_advance (o : Observation α) :
    ({ o with done := o.done + 1 } : Observation α).part micros bounds cell =
      o.part micros bounds cell +
        if cell = o.done then adds micros bounds o.secs o.done else 0 := by
  by_cases hcell : cell = o.done
  · subst hcell
    simp [Observation.part]
  · have hlt : cell < o.done + 1 ↔ cell < o.done := by omega
    simp [Observation.part, hcell, hlt]

theorem recorded_append (hobs : s'.observations = s.observations ++ [⟨secs, 0⟩]) (k : Nat) :
    recorded micros bounds s' k = recorded micros bounds s k := by
  simp [recorded, hobs, part_fresh]

theorem recorded_advance (hget : s.observations[call]? = some o)
    (hobs : s'.observations = s.observations.set call { o with done := o.done + 1 }) (k : Nat) :
    recorded micros bounds s' k = recorded micros bounds s k +
      if k = o.done then adds micros bounds o.secs o.done else 0 := by
  have hset := sum_map_set_add (Observation.part micros bounds k) hget
    { o with done := o.done + 1 }
  rw [part_advance] at hset
  rw [recorded, hobs, recorded]
  omega

/-- Every counter has what was recorded in it, up to its wrap-around. -/
structure Counted (micros : α → UInt64) (bounds : List α) (s : Shared α) : Prop where
  sameBounds : s.histogram.bounds = bounds
  cells : ∀ k v, s.histogram.load k = some v → v = UInt64.ofNat (recorded micros bounds s k)

theorem counted_new : Counted micros bounds (Shared.new bounds) where
  sameBounds := rfl
  cells k v hv := by
    simpa [Shared.new, recorded] using load_new hv

theorem Counted.step {a : Move α} (hs : Counted micros bounds s)
    (hstep : s.step micros a = some s') : Counted micros bounds s' := by
  obtain ⟨hhist, hobs⟩ | ⟨secs, hhist, hobs, -⟩ | ⟨call, o, hget, hobserve, hobs, -⟩ :=
    Shared.step_cases hstep
  · constructor
    · rw [hhist, hs.sameBounds]
    · intro k v hv
      rw [hhist] at hv
      rw [recorded, hobs]
      exact hs.cells k v hv
  · constructor
    · rw [hhist, hs.sameBounds]
    · intro k v hv
      rw [hhist] at hv
      rw [recorded_append hobs]
      exact hs.cells k v hv
  · constructor
    · rw [bounds_observe hobserve, hs.sameBounds]
    · intro k v hv
      rw [load_observe hobserve k, hs.sameBounds] at hv
      rw [recorded_advance hget hobs]
      split at hv
      · rename_i hown
        obtain ⟨w, hw, rfl⟩ := Option.map_eq_some_iff.mp hv
        rw [if_pos hown, UInt64.ofNat_add, ← hs.cells k w hw]
      · rename_i hother
        rw [if_neg hother, Nat.add_zero]
        exact hs.cells k v hv

theorem recorded_step {a : Move α} (hstep : s.step micros a = some s') (k : Nat) :
    recorded micros bounds s k ≤ recorded micros bounds s' k := by
  obtain ⟨-, hobs⟩ | ⟨secs, -, hobs, -⟩ | ⟨call, o, hget, -, hobs, -⟩ :=
    Shared.step_cases hstep
  · rw [recorded, recorded, hobs]
  · rw [recorded_append hobs]
  · rw [recorded_advance hget hobs]
    exact Nat.le_add_right _ _

/-! ### A scrape -/

/-- The value is a number between the two, up to the wrap-around of the counters. -/
def Between (low high : Nat) (v : UInt64) : Prop :=
  ∃ m, v = UInt64.ofNat m ∧ low ≤ m ∧ m ≤ high

theorem Between.mono {low high high' : Nat} {v : UInt64} (h : Between low high v)
    (hle : high ≤ high') : Between low high' v := by
  obtain ⟨m, hv, hlow, hhigh⟩ := h
  exact ⟨m, hv, hlow, hhigh.trans hle⟩

/-- What holds in `u` of a run that passed through `t` before. -/
structure Since (micros : α → UInt64) (bounds : List α) (t u : Shared α) : Prop where
  counted : Counted micros bounds u
  grown : ∀ k, recorded micros bounds t k ≤ recorded micros bounds u k
  called : t.observations.map Observation.secs <+: u.observations.map Observation.secs
  begun : t.scrapes.length ≤ u.scrapes.length
  values : ∀ call values, t.scrapes.length ≤ call → u.scrapes[call]? = some values →
    ∀ (k : Nat) (v : UInt64), values[k]? = some v →
      Between (recorded micros bounds t k) (recorded micros bounds u k) v

theorem since_self (ht : Counted micros bounds t) : Since micros bounds t t where
  counted := ht
  grown _ := le_rfl
  called := List.prefix_rfl
  begun := le_rfl
  values call values hbegun hget := by
    rw [List.getElem?_eq_none hbegun] at hget
    cases hget

theorem secs_step {a : Move α} (hstep : s.step micros a = some s') :
    s.observations.map Observation.secs <+: s'.observations.map Observation.secs := by
  obtain ⟨-, hobs⟩ | ⟨secs, -, hobs, -⟩ | ⟨call, o, hget, -, hobs, -⟩ :=
    Shared.step_cases hstep
  · rw [hobs]
  · rw [hobs, List.map_append]
    exact List.prefix_append _ _
  · have hsame : (s.observations.map Observation.secs)[call]? = some o.secs := by
      rw [List.getElem?_map, hget, Option.map_some]
    obtain ⟨hlt, hsame⟩ := List.getElem?_eq_some_iff.mp hsame
    rw [hobs, List.map_set, ← hsame, List.set_getElem_self]

theorem scrapes_step {a : Move α} (hstep : s.step micros a = some s') :
    s'.scrapes = s.scrapes ∨ s'.scrapes = s.scrapes ++ [[]] ∨
    ∃ call values value, s.scrapes[call]? = some values ∧
      s.histogram.load values.length = some value ∧
      s'.scrapes = s.scrapes.set call (values ++ [value]) := by
  cases a with
  | observe secs =>
      cases hstep
      exact .inl rfl
  | observed call =>
      obtain ⟨o, -, hstep⟩ := Option.bind_eq_some_iff.mp hstep
      obtain ⟨h, -, hstep⟩ := Option.bind_eq_some_iff.mp hstep
      cases hstep
      exact .inl rfl
  | scrape =>
      cases hstep
      exact .inr (.inl rfl)
  | loaded call =>
      obtain ⟨values, hget, hstep⟩ := Option.bind_eq_some_iff.mp hstep
      obtain ⟨value, hvalue, hstep⟩ := Option.bind_eq_some_iff.mp hstep
      cases hstep
      exact .inr (.inr ⟨call, values, value, hget, hvalue, rfl⟩)

theorem Since.step {a : Move α} (hs : Since micros bounds t s)
    (hstep : s.step micros a = some s') : Since micros bounds t s' := by
  have hgrows : ∀ k, recorded micros bounds s k ≤ recorded micros bounds s' k :=
    recorded_step hstep
  refine ⟨hs.counted.step hstep, fun k => (hs.grown k).trans (hgrows k),
    hs.called.trans (secs_step hstep), ?_, ?_⟩
  · have hbegun := hs.begun
    obtain hscrapes | hscrapes | ⟨_, _, _, -, -, hscrapes⟩ := scrapes_step hstep
    · rwa [hscrapes]
    · simp only [hscrapes, List.length_append, List.length_singleton]
      omega
    · rwa [hscrapes, List.length_set]
  · intro call values hcall hget k v hv
    have hearlier : s.scrapes[call]? = some values →
        Between (recorded micros bounds t k) (recorded micros bounds s' k) v := fun hget =>
      (hs.values call values hcall hget k v hv).mono (hgrows k)
    obtain hscrapes | hscrapes | ⟨moved, loaded, value, hmoved, hvalue, hscrapes⟩ :=
      scrapes_step hstep
    · exact hearlier (hscrapes ▸ hget)
    · rw [hscrapes, List.getElem?_append] at hget
      split at hget
      · exact hearlier hget
      · obtain rfl : values = [] := by simpa using List.mem_of_getElem? hget
        cases hv
    · rw [hscrapes] at hget
      by_cases hsame : call = moved
      · subst hsame
        obtain ⟨hlt, -⟩ := List.getElem?_eq_some_iff.mp hmoved
        rw [List.getElem?_set_self hlt] at hget
        obtain rfl := Option.some.inj hget
        rw [List.getElem?_append] at hv
        split at hv
        · exact (hs.values call loaded hcall hmoved k v hv).mono (hgrows k)
        · obtain ⟨rfl, rfl⟩ : k = loaded.length ∧ v = value := by
            rw [List.getElem?_singleton] at hv
            split at hv
            · exact ⟨by omega, (Option.some.inj hv).symm⟩
            · cases hv
          exact ⟨_, hs.counted.cells _ v hvalue, hs.grown _, hgrows _⟩
      · rw [List.getElem?_set_ne (Ne.symm hsame)] at hget
        exact hearlier hget

theorem since_reached (hfirst : FreeRun (Shared.step micros) (Shared.new bounds) as t)
    (hthen : FreeRun (Shared.step micros) t bs u) : Since micros bounds t u := by
  have ht : Counted micros bounds t :=
    hfirst.invariant counted_new fun _ _ _ hs _ hstep => hs.step hstep
  exact hthen.invariant (since_self ht) fun _ _ _ hs _ hstep => hs.step hstep

theorem recorded_le_total (s : Shared α) (k : Nat) :
    recorded micros bounds s k ≤ total micros bounds (s.observations.map Observation.secs) k := by
  rw [recorded, total_eq_sum, List.map_map]
  refine List.sum_le_sum fun o _ => ?_
  rw [Observation.part]
  split
  · exact le_rfl
  · exact Nat.zero_le _

theorem total_le_recorded (s : Shared α) (hk : k < bounds.length + 2) :
    total micros bounds ((s.observations.filter (Observation.complete bounds)).map
      Observation.secs) k ≤ recorded micros bounds s k := by
  rw [recorded, total_eq_sum, List.map_map]
  induction s.observations with
  | nil => exact le_rfl
  | cons o os ih =>
      rw [List.filter_cons, List.map_cons, List.sum_cons]
      split
      · rename_i hcomplete
        have hdone : bounds.length + 2 ≤ o.done := by
          simpa [Observation.complete] using hcomplete
        rw [List.map_cons, List.sum_cons, Observation.part, if_pos (hk.trans_le hdone)]
        exact Nat.add_le_add_left ih _
      · exact ih.trans (Nat.le_add_left _ _)

/-- Whatever else runs meanwhile, a scrape loads of every counter a number between what the
observations stand for that were complete when it began, and what those stand for that were begun
when it ended. When nothing was observed in between, that is the exact number. -/
theorem scrape_between {values : List UInt64}
    (hfirst : FreeRun (Shared.step micros) (Shared.new bounds) as t)
    (hthen : FreeRun (Shared.step micros) t bs u) (hbegun : t.scrapes.length ≤ call)
    (hget : u.scrapes[call]? = some values) (hk : k < bounds.length + 2)
    (hvalue : values[k]? = some v) :
    Between
      (total micros bounds ((t.observations.filter (Observation.complete bounds)).map
        Observation.secs) k)
      (total micros bounds (u.observations.map Observation.secs) k) v ∧
    ((∀ o ∈ t.observations, o.complete bounds = true) →
      u.observations.length = t.observations.length →
      v = UInt64.ofNat (total micros bounds (u.observations.map Observation.secs) k)) := by
  have hs := since_reached hfirst hthen
  obtain ⟨m, hm, hlow, hhigh⟩ := hs.values call values hbegun hget k v hvalue
  have hfrom := (total_le_recorded t hk).trans hlow
  have hto := hhigh.trans (recorded_le_total u k)
  refine ⟨⟨m, hm, hfrom, hto⟩, fun hcomplete hquiet => ?_⟩
  have hsecs : t.observations.map Observation.secs = u.observations.map Observation.secs :=
    hs.called.eq_of_length (by simp [hquiet])
  rw [List.filter_eq_self.mpr hcomplete, hsecs] at hfrom
  rw [hm, le_antisymm hto hfrom]

/-- The count was loaded before the observation and the buckets after it. -/
def tornScrape : List (Move Nat) :=
  [.scrape, .loaded 0, .loaded 0, .observe 3, .observed 0, .observed 0, .observed 0, .observed 0,
    .loaded 0, .loaded 0]

theorem scrape_between_torn :
    ∃ u, FreeRun (Shared.step UInt64.ofNat) (Shared.new [5, 10]) tornScrape u ∧
      u.scrapes = [[0, 0, 1, 1]] ∧ Between 0 1 0 ∧ Between 0 1 1 := by
  have hrun : exec (Shared.step UInt64.ofNat) (Shared.new [5, 10]) tornScrape =
      some ⟨⟨[5, 10], [1, 1], 1, 3⟩, [⟨3, 4⟩], [[0, 0, 1, 1]]⟩ := rfl
  have hfree := freeRun_of_exec hrun
  refine ⟨_, hfree, rfl, ?_, ?_⟩
  · exact (scrape_between (k := 0) .nil hfree (Nat.zero_le 0) rfl (by decide) rfl).1
  · exact (scrape_between (k := 2) .nil hfree (Nat.zero_le 0) rfl (by decide) rfl).1

end Histogram

end Seamless.Relay
