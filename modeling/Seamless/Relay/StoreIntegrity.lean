import Seamless.Relay.AdminAuth
import Seamless.Relay.StoreFile

/-!
Whether the store file can be loaded after a crash. The temporary file is shared by
all saves, so that the rename of one can bring what another has truncated or half
written; the store file stays complete as long as one save at a time uses it.
-/

namespace Seamless.Relay

open Seamless.Common
open Seamless.Library
open Seamless.Library.TransitionSystem

/-- No save creates the temporary file while another one holds it. -/
def StoreMove.createsAlone (s : StoreDisk) : StoreMove → Bool
  | .request _ => true
  | .save task fault =>
      match s.saves[task]? with
      | some p => !p.creates fault || s.saves.all fun q => !q.holdsTmp
      | none => true

namespace StoreDisk

variable {adm : Admin} {format : StoreFormat} {start s u : StoreDisk} {moves : List StoreMove}
  {task : Nat} {fault : Option Nat} {p : SavePhase}

/-- At most one save holds the temporary file, and finds it as it left it. -/
structure TmpHeld (s : StoreDisk) : Prop where
  exclusive : ∀ (i j : Nat) (p q : SavePhase), s.saves[i]? = some p → s.saves[j]? = some q →
    p.holdsTmp = true → q.holdsTmp = true → i = j
  ready : ∀ (i : Nat) (p : SavePhase), s.saves[i]? = some p → p.Ready s.fs

theorem saves_serve (req : StoreRequest) {j : Nat} {q : SavePhase}
    (h : (s.serve adm req).saves[j]? = some q) : q = .snapshot ∨ s.saves[j]? = some q := by
  simp only [serve] at h
  split at h
  · rw [List.getElem?_append] at h
    split at h
    · exact .inr h
    · exact .inl (List.mem_singleton.mp (List.mem_of_getElem? h))
  · exact .inr h

theorem saves_advance {j : Nat} {q : SavePhase}
    (h : (s.advance format task fault p).saves[j]? = some q) :
    (j = task ∧ q = (p.next format s.image s.fs fault).1) ∨ (j ≠ task ∧ s.saves[j]? = some q) := by
  simp only [advance, List.getElem?_set] at h
  split at h
  · rename_i htask
    split at h
    · exact .inl ⟨htask.symm, (Option.some.inj h).symm⟩
    · cases h
  · rename_i htask
    exact .inr ⟨Ne.symm htask, h⟩

theorem TmpHeld.serve (h : s.TmpHeld) (req : StoreRequest) : (s.serve adm req).TmpHeld := by
  constructor
  · intro i j p q hp hq hholds hholds'
    rcases saves_serve req hp with rfl | hp
    · cases hholds
    · rcases saves_serve req hq with rfl | hq
      · cases hholds'
      · exact h.exclusive i j p q hp hq hholds hholds'
  · intro i p hp
    rcases saves_serve req hp with rfl | hp
    · trivial
    · exact h.ready i p hp

theorem TmpHeld.advance (h : s.TmpHeld) (hp : s.saves[task]? = some p)
    (halone : p.creates fault = true → ∀ q ∈ s.saves, q.holdsTmp = false) :
    (s.advance format task fault p).TmpHeld := by
  have hother : ∀ j q, j ≠ task → s.saves[j]? = some q → q.holdsTmp = true →
      p.holdsTmp = false ∧ p.creates fault = false := by
    intro j q hj hq hholds
    constructor
    · by_contra hmine
      exact hj (h.exclusive j task q p hq hp hholds (by simpa using hmine))
    · by_contra hcreates
      have hfree := halone (by simpa using hcreates) q (List.mem_of_getElem? hq)
      rw [hholds] at hfree
      cases hfree
  have hnext : ∀ j q, j ≠ task → s.saves[j]? = some q → q.holdsTmp = true →
      (p.next format s.image s.fs fault).1.holdsTmp = false := by
    intro j q hj hq hholds
    obtain ⟨hmine, hcreates⟩ := hother j q hj hq hholds
    by_contra hnext
    rcases SavePhase.holdsTmp_next (by simpa using hnext) with h' | h'
    · rw [hmine] at h'
      cases h'
    · rw [hcreates] at h'
      cases h'
  constructor
  · intro i j q r hq hr hholds hholds'
    rcases saves_advance hq with ⟨rfl, rfl⟩ | ⟨hi, hq'⟩ <;>
      rcases saves_advance hr with ⟨rfl, rfl⟩ | ⟨hj, hr'⟩
    · rfl
    · rw [hnext j r hj hr' hholds'] at hholds
      cases hholds
    · rw [hnext i q hi hq' hholds] at hholds'
      cases hholds'
    · exact h.exclusive i j q r hq' hr' hholds hholds'
  · intro i q hq
    rcases saves_advance hq with ⟨rfl, rfl⟩ | ⟨hi, hq⟩
    · exact SavePhase.next_ready (h.ready i p hp)
    · cases hholds : q.holdsTmp with
      | false => exact SavePhase.ready_of_not_holdsTmp hholds _
      | true =>
          obtain ⟨hmine, hcreates⟩ := hother i q hi hq hholds
          change q.Ready (p.next format s.image s.fs fault).2
          rw [SavePhase.next_fs hmine hcreates]
          exact h.ready i q hq

theorem Serialises.congr {s' : StoreDisk} {image : StoreImage} (h : start.Serialises format s image)
    (hsame : s'.fs.read .store = s.fs.read .store) : start.Serialises format s' image := by
  rw [Serialises, hsame]
  exact h

/-- What the relay begins with: the store file is there, and was read. -/
structure Started (format : StoreFormat) (s : StoreDisk) : Prop where
  idle : s.saves = []
  stored : (s.fs.read .store).isSome
  loaded : load format s.fs = some s.image

theorem load_of_text {image : StoreImage} {fs : StoreFs}
    (h : fs.read .store = some (format.text image)) (hround : format.Reads image) : load format fs = some image := by
  rw [load, h]
  simpa [StoreFormat.text, StoreFormat.Reads] using hround

theorem saveAlone_store (format : StoreFormat) (image : StoreImage) (fs : StoreFs) :
    (saveAlone format image fs).read .store = some (format.text image) := by
  obtain ⟨hopened, hempty, -⟩ := fs.createTruncate_spec .tmp
  have hready : (SavePhase.replacing (format.text image)).Ready
      ((fs.createTruncate .tmp).2.overwrite (fs.createTruncate .tmp).1
        (format.text image)) :=
    FileSystem.read_overwrite_of_empty hopened hempty (format.text image)
  exact SavePhase.read_store_replacing format image hready

theorem started_of_startUp {readable : String → Bool} {fresh : String} {saveOk : Bool}
    {shared : Shared} {fs : StoreFs}
    (h : startUp format readable fresh saveOk shared fs = some s)
    (hround : format.Reads s.image) : s.Started format := by
  simp only [startUp, Option.bind_eq_bind, Option.bind_eq_some_iff, Option.pure_def,
    Option.some.injEq] at h
  obtain ⟨image, hload, ⟨image', fs'⟩, hidentity, rfl⟩ := h
  unfold loadOrCreateIdentity at hidentity
  split at hidentity
  · rename_i hex hhex
    split at hidentity
    · obtain ⟨rfl, rfl⟩ := Prod.mk.inj (Option.some.inj hidentity)
      refine ⟨rfl, ?_, hload⟩
      cases hread : fs.read .store with
      | some bytes => rfl
      | none =>
          rw [load, hread, Option.some.injEq] at hload
          rw [← hload] at hhex
          cases hhex
    · cases hidentity
  · split at hidentity
    · obtain ⟨rfl, rfl⟩ := Prod.mk.inj (Option.some.inj hidentity)
      have hstored := saveAlone_store format
        { image with identity := { image.identity with identityHex := some fresh } } fs
      exact ⟨rfl, by simp [hstored], load_of_text hstored hround⟩
    · cases hidentity

/-- The store file is complete: it is the text of a store the relay had, and loading it
gives that store with the relay's identity. -/
def Loadable (format : StoreFormat) (adm : Admin) (start : StoreDisk) (moves : List StoreMove) (s : StoreDisk) : Prop :=
  ∃ u, Visits (StoreDisk.step format adm) start moves u ∧ start.Serialises format s u.image ∧
    load format s.fs = some u.image ∧ u.image.identity = start.image.identity

theorem load_of_serialises {image : StoreImage} (hstart : start.Started format)
    (hround : format.Reads image) (h : start.Serialises format s image) :
    load format s.fs = some image := by
  rcases h with htext | ⟨hsame, rfl⟩
  · exact load_of_text htext hround
  · rw [load, hsame]
    exact hstart.loaded

theorem identity_of_visits (h : Visits (StoreDisk.step format adm) start moves u) :
    u.identity = start.identity := by
  apply h.invariant (I := fun u => u.identity = start.identity) rfl
  intro t move v ht hstep
  cases move with
  | request req =>
      obtain rfl := Option.some.inj hstep
      exact ht
  | save task fault =>
      obtain ⟨p, -, rfl⟩ := Option.map_eq_some_iff.mp hstep
      exact ht

/-- What carries the store file through a run: the saves under way have genuine texts,
and the temporary file belongs to one of them. -/
structure Safe (format : StoreFormat) (adm : Admin) (start : StoreDisk)
    (moves : List StoreMove) (s : StoreDisk) : Prop where
  held : s.TmpHeld
  genuine : ∀ (i : Nat) (p : SavePhase) (text : List UInt8), s.saves[i]? = some p →
    p.text? = some text → ∃ u, Visits (StoreDisk.step format adm) start moves u ∧
      text = format.text u.image
  intact : ∃ u, Visits (StoreDisk.step format adm) start moves u ∧ start.Serialises format s u.image

theorem tmpHeld_idle (h : s.saves = []) : s.TmpHeld := by
  constructor <;> simp [h]

theorem safe_start (hidle : start.saves = []) : Safe format adm start [] start where
  held := tmpHeld_idle hidle
  genuine := by simp [hidle]
  intact := ⟨start, visits_start start [], .inr ⟨rfl, rfl⟩⟩

theorem Safe.serve (h : Safe format adm start moves s) (req : StoreRequest) :
    Safe format adm start (moves ++ [.request req]) (s.serve adm req) where
  held := h.held.serve req
  genuine := by
    intro i p text hp htext
    rcases saves_serve req hp with rfl | hp
    · cases htext
    · obtain ⟨u, hu, heq⟩ := h.genuine i p text hp htext
      exact ⟨u, hu.append _, heq⟩
  intact := by
    obtain ⟨u, hu, hserialises⟩ := h.intact
    exact ⟨u, hu.append _, hserialises⟩

theorem Safe.advance (h : Safe format adm start moves s)
    (hrun : Visits (StoreDisk.step format adm) start moves s) (hp : s.saves[task]? = some p)
    (halone : p.creates fault = true → ∀ q ∈ s.saves, q.holdsTmp = false) :
    Safe format adm start (moves ++ [.save task fault]) (s.advance format task fault p) where
  held := h.held.advance hp halone
  genuine := by
    intro i q text hq htext
    rcases saves_advance hq with ⟨rfl, rfl⟩ | ⟨-, hold⟩
    · rcases SavePhase.text?_next htext with hmine | ⟨-, rfl⟩
      · obtain ⟨u, hu, heq⟩ := h.genuine i p text hp hmine
        exact ⟨u, hu.append _, heq⟩
      · exact ⟨s, hrun.append _, rfl⟩
    · obtain ⟨u, hu, heq⟩ := h.genuine i q text hold htext
      exact ⟨u, hu.append _, heq⟩
  intact := by
    rcases SavePhase.read_store_next format s.image fault (h.held.ready task p hp) with
      hsame | ⟨text, htext, hwritten⟩
    · obtain ⟨u, hu, hserialises⟩ := h.intact
      exact ⟨u, hu.append _, hserialises.congr hsame⟩
    · obtain ⟨u, hu, rfl⟩ := h.genuine task p text hp htext
      exact ⟨u, hu.append _, .inl hwritten⟩

theorem safe_of_run (hidle : start.saves = [])
    (hrun : Run (StoreDisk.step format adm) (fun t move => move.createsAlone t = true) start moves s) :
    Safe format adm start moves s := by
  induction hrun with
  | nil => exact safe_start hidle
  | @snoc moves t u move hinit hguard hlast ih =>
      cases move with
      | request req =>
          obtain rfl := Option.some.inj hlast
          exact ih.serve req
      | save task fault =>
          obtain ⟨p, hp, rfl⟩ := Option.map_eq_some_iff.mp hlast
          apply ih.advance hinit.visits hp
          intro hcreates
          simpa [StoreMove.createsAlone, hp, hcreates] using hguard

end StoreDisk

/-- The store file can be loaded, in every state of every run in which no save creates
the temporary file while another one is between creating it and its end. -/
theorem storeFile_loadable (format : StoreFormat) (adm : Admin) (start : StoreDisk)
    (hstart : start.Started format) (moves : List StoreMove) (s : StoreDisk)
    (hround : ∀ u, Visits (StoreDisk.step format adm) start moves u → format.Reads u.image)
    (hrun : Run (StoreDisk.step format adm) (fun t move => move.createsAlone t = true)
      start moves s) :
    StoreDisk.Loadable format adm start moves s := by
  obtain ⟨u, hu, hserialises⟩ := (StoreDisk.safe_of_run hstart.idle hrun).intact
  refine ⟨u, hu, hserialises, ?_, StoreDisk.identity_of_visits hu⟩
  exact StoreDisk.load_of_serialises hstart (hround u hu) hserialises

/-- A reader for the texts of the given stores. -/
def readerOf (print : StoreImage → String) (images : List StoreImage) (text : String) :
    Option StoreImage :=
  images.find? fun image => print image == text

theorem readerOf_print {print : StoreImage → String} {images : List StoreImage}
    {image : StoreImage} (hnodup : (images.map print).Nodup) (h : image ∈ images) :
    readerOf print images (print image) = some image := by
  cases hfind : readerOf print images (print image) with
  | none => exact absurd (List.find?_eq_none.mp hfind image h) (by simp)
  | some found =>
      have htext : print found = print image := by
        simpa using List.find?_some hfind
      rw [List.inj_on_of_nodup_map hnodup (List.mem_of_find?_eq_some hfind) h htext]

def storeWith (account : Option String) : StoreImage :=
  ⟨⟨[], account.map (⟨"", ·⟩)⟩, ⟨some "5eed", none, none, none⟩⟩

def accountStores : List StoreImage :=
  [storeWith none, storeWith (some "1"), storeWith (some "2")]

/-- What is printed for a store with no routes and without characters to escape. -/
def accountText (image : StoreImage) : String :=
  let cf := match image.store.cf with
    | some cf => "\x7b\n    \"api_token\": \"" ++ cf.apiToken ++ "\",\n    \"account_id\": \"" ++
        cf.accountId ++ "\"\n  \x7d"
    | none => "null"
  let hex := match image.identity.identityHex with
    | some hex => "\"" ++ hex ++ "\""
    | none => "null"
  "\x7b\n  \"routes\": [],\n  \"cf\": " ++ cf ++ ",\n  \"identity_hex\": " ++ hex ++ "\n\x7d"

def accountFormat : StoreFormat := ⟨accountText, readerOf accountText accountStores⟩

theorem reads_accountFormat {image : StoreImage} (h : image ∈ accountStores) :
    accountFormat.Reads image :=
  readerOf_print (by decide +kernel) h

def freshlyStarted : StoreDisk :=
  ⟨emptyState, (storeWith none).identity, saveAlone accountFormat (storeWith none) .empty, []⟩

theorem started_freshlyStarted : freshlyStarted.Started accountFormat := by
  have hstartUp : startUp accountFormat (fun _ => true) "5eed" true (.initial .disabled)
      .empty = some freshlyStarted := rfl
  have hmem : storeWith none ∈ accountStores := by decide
  exact StoreDisk.started_of_startUp hstartUp (reads_accountFormat hmem)

def settingsRequest (account : String) : StoreMove := .request (.saveSettings ⟨none, account⟩)

def saveSteps (task : Nat) (steps : Nat) : List StoreMove :=
  List.replicate steps (.save task none)

/-- The two saves overlap, but not in their use of the temporary file. One of the
writes fails. -/
def overlappingSaves : List StoreMove :=
  [settingsRequest "1", settingsRequest "2"] ++ saveSteps 0 2 ++ saveSteps 1 2 ++
    saveSteps 0 1 ++ [.save 0 (some 7)] ++ saveSteps 1 3

theorem reads_overlappingSaves {u : StoreDisk}
    (hu : Visits (StoreDisk.step accountFormat lockedAdmin) freshlyStarted overlappingSaves u) :
    accountFormat.Reads u.image := by
  have hall : (overlappingSaves.inits.all fun moves =>
      (exec (StoreDisk.step accountFormat lockedAdmin) freshlyStarted moves).all fun u =>
        u.image ∈ accountStores) = true := by
    decide +kernel
  apply reads_accountFormat
  simpa using hu.of_all hall

theorem exec_overlappingSaves :
    (execGuarded (StoreDisk.step accountFormat lockedAdmin)
      (fun t move => move.createsAlone t = true) freshlyStarted overlappingSaves).map
        (fun s => s.fs.read .store) = some (some (accountFormat.text (storeWith (some "2")))) := by
  decide +kernel

theorem storeFile_loadable_overlappingSaves :
    ∃ s, Run (StoreDisk.step accountFormat lockedAdmin)
        (fun t move => move.createsAlone t = true) freshlyStarted overlappingSaves s ∧
      s.fs.read .store = some (accountFormat.text (storeWith (some "2"))) ∧
      StoreDisk.Loadable accountFormat lockedAdmin freshlyStarted overlappingSaves s := by
  obtain ⟨s, hrun, hstore⟩ := exists_run exec_overlappingSaves
  refine ⟨s, hrun, hstore, ?_⟩
  apply storeFile_loadable _ _ _ started_freshlyStarted _ _ _ hrun
  exact fun u hu => reads_overlappingSaves hu

/-- The second save truncates the file that the first one is about to rename. -/
def truncatedSave : List StoreMove :=
  [settingsRequest "1", settingsRequest "2"] ++ saveSteps 0 4 ++ saveSteps 1 3 ++ saveSteps 0 1

theorem not_loadable_truncatedSave :
    ¬ ∀ (format : StoreFormat) (adm : Admin) (start : StoreDisk) (moves : List StoreMove)
      (s : StoreDisk), start.Started format →
      (∀ u, Visits (StoreDisk.step format adm) start moves u → format.Reads u.image) →
      FreeRun (StoreDisk.step format adm) start moves s →
      StoreDisk.Loadable format adm start moves s := by
  intro hall
  have hexec : (exec (StoreDisk.step accountFormat lockedAdmin) freshlyStarted
      truncatedSave).map (fun s => load accountFormat s.fs) = some none := by
    decide +kernel
  obtain ⟨s, hrun, hload⟩ := exists_freeRun hexec
  have hround : ∀ u,
      Visits (StoreDisk.step accountFormat lockedAdmin) freshlyStarted truncatedSave u →
      accountFormat.Reads u.image := by
    intro u hu
    have hvisited : (truncatedSave.inits.all fun moves =>
        (exec (StoreDisk.step accountFormat lockedAdmin) freshlyStarted moves).all fun u =>
          u.image ∈ accountStores) = true := by
      decide +kernel
    apply reads_accountFormat
    simpa using hu.of_all hvisited
  obtain ⟨u, -, -, hloaded, -⟩ := hall _ _ _ _ s started_freshlyStarted hround hrun
  rw [hload] at hloaded
  cases hloaded

/-! ### Starting again -/

theorem StoreDisk.exists_readable_of_startUp {format : StoreFormat} {readable : String → Bool}
    {fresh : String} {saveOk : Bool} {shared : Shared} {fs : StoreFs} {start : StoreDisk}
    (hfresh : readable fresh = true)
    (h : startUp format readable fresh saveOk shared fs = some start) :
    ∃ hex, start.identity.identityHex = some hex ∧ readable hex = true := by
  simp only [startUp, Option.bind_eq_bind, Option.bind_eq_some_iff, Option.pure_def,
    Option.some.injEq] at h
  obtain ⟨image, -, ⟨image', fs'⟩, hidentity, rfl⟩ := h
  unfold loadOrCreateIdentity at hidentity
  split at hidentity
  · rename_i hex hhex
    split at hidentity
    · rename_i hreadable
      obtain ⟨rfl, rfl⟩ := Prod.mk.inj (Option.some.inj hidentity)
      exact ⟨hex, hhex, hreadable⟩
    · cases hidentity
  · split at hidentity
    · obtain ⟨rfl, rfl⟩ := Prod.mk.inj (Option.some.inj hidentity)
      exact ⟨fresh, rfl, hfresh⟩
    · cases hidentity

theorem startUp_of_load {format : StoreFormat} {readable : String → Bool} {fresh : String}
    {saveOk : Bool} {shared : Shared} {fs : StoreFs} {image : StoreImage} {hex : String}
    (hload : load format fs = some image) (hhex : image.identity.identityHex = some hex)
    (hreadable : readable hex = true) :
    startUp format readable fresh saveOk shared fs =
      some ⟨⟨image.store, shared⟩, image.identity, fs, []⟩ := by
  simp [startUp, hload, loadOrCreateIdentity, hhex, hreadable]

/-- Whenever the relay stops, it starts again from the store file: with the identity that
it had, and with a store that it had at some time. -/
theorem relay_startsAgain (format : StoreFormat) (adm : Admin) (readable : String → Bool)
    (fresh : String) (hfresh : readable fresh = true) (saveOk : Bool) (shared : Shared)
    (fs : StoreFs) (start : StoreDisk)
    (hstart : startUp format readable fresh saveOk shared fs = some start)
    (moves : List StoreMove) (s : StoreDisk)
    (hround : ∀ u, Visits (StoreDisk.step format adm) start moves u → format.Reads u.image)
    (hrun : Run (StoreDisk.step format adm) (fun t move => move.createsAlone t = true)
      start moves s)
    (fresh' : String) (saveOk' : Bool) (shared' : Shared) :
    ∃ u, Visits (StoreDisk.step format adm) start moves u ∧
      startUp format readable fresh' saveOk' shared' s.fs =
        some ⟨⟨u.admin.store, shared'⟩, start.identity, s.fs, []⟩ := by
  obtain ⟨hex, hhex, hreadable⟩ := StoreDisk.exists_readable_of_startUp hfresh hstart
  have hstarted := StoreDisk.started_of_startUp hstart (hround start (visits_start start moves))
  obtain ⟨u, hu, hserialises⟩ := (StoreDisk.safe_of_run hstarted.idle hrun).intact
  have hidentity := StoreDisk.identity_of_visits hu
  have hload := StoreDisk.load_of_serialises hstarted (hround u hu) hserialises
  refine ⟨u, hu, ?_⟩
  rw [← hidentity]
  refine startUp_of_load hload ?_ hreadable
  rw [StoreDisk.image, hidentity]
  exact hhex

theorem relay_startsAgain_overlappingSaves :
    ∃ s, Run (StoreDisk.step accountFormat lockedAdmin)
        (fun t move => move.createsAlone t = true) freshlyStarted overlappingSaves s ∧
      ∃ u, Visits (StoreDisk.step accountFormat lockedAdmin) freshlyStarted overlappingSaves u ∧
        startUp accountFormat (fun _ => true) "0123" false (.initial .disabled) s.fs =
          some ⟨⟨u.admin.store, .initial .disabled⟩, freshlyStarted.identity, s.fs, []⟩ := by
  obtain ⟨s, hrun, -⟩ := exists_run exec_overlappingSaves
  exact ⟨s, hrun, relay_startsAgain accountFormat lockedAdmin (fun _ => true) "5eed" rfl true
    (.initial .disabled) .empty freshlyStarted rfl overlappingSaves s
    (fun u hu => reads_overlappingSaves hu) hrun "0123" false (.initial .disabled)⟩

end Seamless.Relay
