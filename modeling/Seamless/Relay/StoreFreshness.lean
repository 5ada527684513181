import Seamless.Relay.StoreIntegrity

/-!
Whether the store file is up to date once all requests have returned. A save renames
whatever snapshot it took, however old that is by then.
-/

namespace Seamless.Relay

open Seamless.Common
open Seamless.Library
open Seamless.Library.TransitionSystem

/-- Every operation on a file succeeds. -/
def StoreMove.succeeds (s : StoreDisk) : StoreMove → Bool
  | .request _ => true
  | .save task fault => fault.isNone &&
      match s.saves[task]? with
      | some (.replacing _) => (s.fs.rename .tmp .store).isSome
      | _ => true

/-- No save takes its snapshot while another one is between its snapshot and its end. -/
def StoreMove.snapshotsAlone (s : StoreDisk) : StoreMove → Bool
  | .request _ => true
  | .save task _ =>
      s.saves[task]? != some .snapshot || s.saves.all fun p => p.text?.isNone

namespace StoreDisk

variable {format : StoreFormat} {adm : Admin} {start s : StoreDisk} {moves : List StoreMove}
  {task : Nat} {p : SavePhase}

/-- Some save is going to bring the store to disk, or it is there. -/
def Pending (format : StoreFormat) (start s : StoreDisk) : Prop :=
  (∃ i : Nat, s.saves[i]? = some SavePhase.snapshot) ∨
  (∃ (i : Nat) (p : SavePhase), s.saves[i]? = some p ∧ p.text? = some (format.text s.image)) ∨
  ((∀ (i : Nat) (p : SavePhase), s.saves[i]? = some p → p.text? = none) ∧
    start.Serialises format s s.image)

/-- At most one save has taken its snapshot and not ended, and the store is on its way
to disk or there. -/
structure Serial (format : StoreFormat) (start s : StoreDisk) : Prop where
  held : s.TmpHeld
  one : ∀ (i j : Nat) (p q : SavePhase), s.saves[i]? = some p → s.saves[j]? = some q →
    p.text?.isSome → q.text?.isSome → i = j
  pending : start.Pending format s

theorem serial_start (hidle : start.saves = []) : start.Serial format start where
  held := tmpHeld_idle hidle
  one := by simp [hidle]
  pending := .inr (.inr ⟨by simp [hidle], .inr ⟨rfl, rfl⟩⟩)

theorem store_of_not_saves {req : StoreRequest} {st : AdminState}
    (h : (req.handle adm st).1.saves = false) : (req.handle adm st).2.store = st.store := by
  cases req with
  | createRoute env req =>
      simp only [StoreRequest.handle, AdminState.createRoute] at h ⊢
      split
      · rfl
      · split
        · rfl
        · rename_i hfilled hnew
          simp [hfilled, hnew, Reply.saves, Reply.ok] at h
  | updateRoute id req =>
      simp only [StoreRequest.handle, AdminState.updateRoute] at h ⊢
      split
      · rename_i routes hfound
        simp [hfound, Reply.saves, Reply.ok] at h
      · rfl
  | deleteRoute id =>
      simp only [StoreRequest.handle, AdminState.deleteRoute] at h ⊢
      split at h
      · cases h
      · rename_i hsame
        have hlength : (st.store.routes.filter fun r => r.id != id).length =
            st.store.routes.length :=
          le_antisymm (List.length_filter_le _ _) (not_lt.mp hsame)
        have hall : (st.store.routes.filter fun r => r.id != id) = st.store.routes :=
          List.filter_sublist.eq_of_length hlength
        simp [AdminState.setRoutes, hall]
  | saveSettings req => cases h

theorem Serial.serve (h : start.Serial format s) (req : StoreRequest) :
    start.Serial format (s.serve adm req) where
  held := h.held.serve req
  one := by
    intro i j p q hp hq htext htext'
    rcases saves_serve req hp with rfl | hp
    · cases htext
    · rcases saves_serve req hq with rfl | hq
      · cases htext'
      · exact h.one i j p q hp hq htext htext'
  pending := by
    cases hsaves : (req.handle adm s.admin).1.saves with
    | true =>
        left
        exact ⟨s.saves.length, by simp [StoreDisk.serve, hsaves]⟩
    | false =>
        have himage : (s.serve adm req).image = s.image := by
          simp only [image, StoreDisk.serve, store_of_not_saves hsaves]
        have hlist : (s.serve adm req).saves = s.saves := by
          simp [StoreDisk.serve, hsaves]
        rw [Pending, himage, hlist]
        exact h.pending

theorem saves_advance_self (hp : s.saves[task]? = some p) (fault : Option Nat) :
    (s.advance format task fault p).saves[task]? = some (p.next format s.image s.fs fault).1 := by
  obtain ⟨hlt, -⟩ := List.getElem?_eq_some_iff.mp hp
  exact List.getElem?_set_self hlt

theorem saves_advance_ne {i : Nat} (hi : i ≠ task) (fault : Option Nat) (p : SavePhase) :
    (s.advance format task fault p).saves[i]? = s.saves[i]? :=
  List.getElem?_set_ne (Ne.symm hi)

theorem advance_ended (hp : s.saves[task]? = some .ended) (fault : Option Nat) :
    s.advance format task fault .ended = s := by
  obtain ⟨hlt, hended⟩ := List.getElem?_eq_some_iff.mp hp
  simp only [advance, SavePhase.next]
  rw [← hended, List.set_getElem_self]

theorem Serial.others (h : start.Serial format s) (hp : s.saves[task]? = some p)
    (htext : p.text?.isSome) {j : Nat} {q : SavePhase} (hj : j ≠ task)
    (hq : s.saves[j]? = some q) : q.text? = none := by
  by_contra hsome
  exact hj (h.one j task q p hq hp (Option.isSome_iff_ne_none.mpr hsome) htext)

theorem one_of_others
    (hothers : ∀ (j : Nat) (q : SavePhase), j ≠ task → s.saves[j]? = some q → q.text? = none)
    {i j : Nat} {q r : SavePhase} (hq : (s.advance format task none p).saves[i]? = some q)
    (hr : (s.advance format task none p).saves[j]? = some r) (htext : q.text?.isSome)
    (htext' : r.text?.isSome) : i = j := by
  have honly : ∀ (k : Nat) (x : SavePhase),
      (s.advance format task none p).saves[k]? = some x → x.text?.isSome → k = task := by
    intro k x hx hsome
    rcases saves_advance hx with ⟨rfl, -⟩ | ⟨hk, hold⟩
    · rfl
    · rw [hothers k x hk hold] at hsome
      cases hsome
  rw [honly i q hq htext, honly j r hr htext']

theorem Serial.advance_snapshot (h : start.Serial format s) (hp : s.saves[task]? = some .snapshot)
    (halone : ∀ q ∈ s.saves, q.text? = none) :
    start.Serial format (s.advance format task none .snapshot) where
  held := h.held.advance hp (by simp [SavePhase.creates])
  one := by
    intro i j q r
    apply one_of_others
    intro k x _ hx
    exact halone x (List.mem_of_getElem? hx)
  pending := .inr (.inl ⟨task, _, saves_advance_self hp none, rfl⟩)

theorem Serial.pending_text (h : start.Serial format s) {text : List UInt8}
    (hp : s.saves[task]? = some p) (htext : p.text? = some text) :
    start.Pending format (s.advance format task none p) := by
  have hsome : p.text?.isSome := by simp [htext]
  rcases h.pending with ⟨i, hi⟩ | ⟨i, q, hq, hcurrent⟩ | ⟨hnone, -⟩
  · have htask : i ≠ task := by
      rintro rfl
      obtain rfl : SavePhase.snapshot = p := Option.some.inj (hi.symm.trans hp)
      cases htext
    exact .inl ⟨i, (saves_advance_ne htask none p).trans hi⟩
  · obtain rfl : i = task := h.one i task q p hq hp (by simp [hcurrent]) hsome
    obtain rfl : q = p := Option.some.inj (hq.symm.trans hp)
    right
    rcases SavePhase.next_of_text? format s.image (h.held.ready i q hq) hcurrent with
      hkept | ⟨hended, hwritten⟩
    · exact .inl ⟨i, _, saves_advance_self hq none, hkept⟩
    · right
      refine ⟨?_, .inl hwritten⟩
      intro j r hr
      rcases saves_advance hr with ⟨-, rfl⟩ | ⟨hj, hold⟩
      · rw [hended]
        rfl
      · exact h.others hq hsome hj hold
  · rw [hnone task p hp] at htext
    cases htext

theorem Serial.advance_text (h : start.Serial format s) {text : List UInt8}
    (hp : s.saves[task]? = some p) (htext : p.text? = some text) :
    start.Serial format (s.advance format task none p) := by
  have hothers : ∀ (j : Nat) (q : SavePhase), j ≠ task → s.saves[j]? = some q →
      q.text? = none := by
    intro j q hj hq
    exact h.others hp (by simp [htext]) hj hq
  have halone : p.creates none = true → ∀ q ∈ s.saves, q.holdsTmp = false := by
    intro hcreates q hq
    obtain ⟨j, hj⟩ := List.getElem?_of_mem hq
    by_cases htask : j = task
    · subst htask
      obtain rfl : p = q := Option.some.inj (hp.symm.trans hj)
      exact SavePhase.not_holdsTmp_of_creates hcreates
    · exact SavePhase.not_holdsTmp_of_text? (hothers j q htask hj)
  refine ⟨h.held.advance hp halone, ?_, h.pending_text hp htext⟩
  intro i j q r
  exact one_of_others hothers

theorem Serial.advance (h : start.Serial format s) (hp : s.saves[task]? = some p)
    (halone : p = .snapshot → ∀ q ∈ s.saves, q.text? = none) :
    start.Serial format (s.advance format task none p) := by
  cases htext : p.text? with
  | some text => exact h.advance_text hp htext
  | none =>
      rcases SavePhase.eq_of_text?_none htext with rfl | rfl
      · exact h.advance_snapshot hp (halone rfl)
      · rw [advance_ended hp]
        exact h

theorem serial_of_run (hidle : start.saves = [])
    (hrun : Run (StoreDisk.step format adm)
      (fun t move => (move.succeeds t && move.snapshotsAlone t) = true) start moves s) :
    start.Serial format s := by
  apply hrun.invariant (serial_start hidle)
  intro t move u ht hguard hstep
  cases move with
  | request req =>
      obtain rfl := Option.some.inj hstep
      exact ht.serve req
  | save task fault =>
      obtain ⟨p, hp, rfl⟩ := Option.map_eq_some_iff.mp hstep
      simp only [StoreMove.succeeds, StoreMove.snapshotsAlone, hp, Bool.and_eq_true] at hguard
      obtain ⟨⟨hfault, -⟩, hsnapshot⟩ := hguard
      obtain rfl := Option.isNone_iff_eq_none.mp hfault
      apply ht.advance hp
      rintro rfl
      simpa using hsnapshot

end StoreDisk

/-- Once every save has ended, the store file is the text of the store, in every run in
which the operations succeed and no save takes its snapshot while another one is between
its snapshot and its end. -/
theorem storeFile_current (format : StoreFormat) (adm : Admin) (start : StoreDisk)
    (hstart : start.Started format) (moves : List StoreMove) (s : StoreDisk)
    (hround : format.Reads s.image)
    (hrun : Run (StoreDisk.step format adm)
      (fun t move => (move.succeeds t && move.snapshotsAlone t) = true) start moves s)
    (hended : ∀ p ∈ s.saves, p = .ended) :
    start.Serialises format s s.image ∧ load format s.fs = some s.image := by
  have hserialises : start.Serialises format s s.image := by
    rcases (StoreDisk.serial_of_run hstart.idle hrun).pending with
      ⟨i, hi⟩ | ⟨i, p, hp, htext⟩ | ⟨-, hcurrent⟩
    · cases hended _ (List.mem_of_getElem? hi)
    · rw [hended p (List.mem_of_getElem? hp)] at htext
      cases htext
    · exact hcurrent
  exact ⟨hserialises, StoreDisk.load_of_serialises hstart hround hserialises⟩

/-- The settings are changed while the first save is at work. -/
def serialSaves : List StoreMove :=
  [settingsRequest "1"] ++ saveSteps 0 3 ++ [settingsRequest "2"] ++ saveSteps 0 2 ++ saveSteps 1 5

theorem storeFile_current_serialSaves :
    ∃ s, Run (StoreDisk.step accountFormat lockedAdmin)
        (fun t move => (move.succeeds t && move.snapshotsAlone t) = true)
        freshlyStarted serialSaves s ∧
      freshlyStarted.Serialises accountFormat s s.image ∧ load accountFormat s.fs = some s.image := by
  have hexec : (execGuarded (StoreDisk.step accountFormat lockedAdmin)
      (fun t move => (move.succeeds t && move.snapshotsAlone t) = true)
        freshlyStarted serialSaves).map (fun s => (s.image, s.saves)) =
          some (storeWith (some "2"), [.ended, .ended]) := by
    decide +kernel
  obtain ⟨s, hrun, hfacts⟩ := exists_run hexec
  obtain ⟨himage, hsaves⟩ := Prod.mk.inj hfacts
  refine ⟨s, hrun, ?_⟩
  apply storeFile_current _ _ _ started_freshlyStarted _ _ _ hrun
  · simp [hsaves]
  · apply reads_accountFormat
    rw [himage]
    decide

/-- The first save has its snapshot, and is slower than all of the second. -/
def slowSave : List StoreMove :=
  [settingsRequest "1"] ++ saveSteps 0 2 ++ [settingsRequest "2"] ++ saveSteps 1 5 ++ saveSteps 0 3

theorem not_current_slowSave :
    ¬ ∀ (format : StoreFormat) (adm : Admin) (start : StoreDisk) (moves : List StoreMove)
      (s : StoreDisk), start.Started format → format.Reads s.image →
      Run (StoreDisk.step format adm) (fun t move => move.succeeds t = true) start moves s →
      (∀ p ∈ s.saves, p = .ended) →
      start.Serialises format s s.image ∧ load format s.fs = some s.image := by
  intro hall
  have hexec : (execGuarded (StoreDisk.step accountFormat lockedAdmin) (fun t move => move.succeeds t = true)
      freshlyStarted slowSave).map
        (fun s => (s.image, s.saves, load accountFormat s.fs)) =
          some (storeWith (some "2"), [.ended, .ended], some (storeWith (some "1"))) := by
    decide +kernel
  obtain ⟨s, hrun, hfacts⟩ := exists_run hexec
  obtain ⟨himage, hrest⟩ := Prod.mk.inj hfacts
  obtain ⟨hsaves, hload⟩ := Prod.mk.inj hrest
  have hround : accountFormat.Reads s.image := by
    apply reads_accountFormat
    rw [himage]
    decide
  obtain ⟨-, hloaded⟩ := hall _ _ _ _ s started_freshlyStarted hround hrun (by simp [hsaves])
  rw [hload, himage] at hloaded
  revert hloaded
  decide +kernel

end Seamless.Relay
