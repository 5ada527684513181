import Seamless.Library.FileSystem
import Seamless.Relay.AdminApi

/-!
The store on disk. A request that changes the store ends in a call of `store::save`,
which takes a snapshot under the read lock and then, with no lock held, writes it to
a temporary file and renames that. Nothing keeps several saves from overlapping, and
all of them use the same temporary name.
-/

namespace Seamless.Relay

open Seamless.Common
open Seamless.Library

/-- The fields of the store that no handler touches. The last three are no longer used;
they are kept when they were there. -/
structure StoredIdentity where
  identityHex : Option String
  identityX25519Hex : Option String
  identityKemPkHex : Option String
  identityKemSkHex : Option String
  deriving Repr, DecidableEq

/-- All that is written to the file. -/
structure StoreImage where
  store : Store
  identity : StoredIdentity
  deriving Repr, DecidableEq

/-- `serde_json` at the type of the store. -/
structure StoreFormat where
  toStringPretty : StoreImage → String
  fromStr : String → Option StoreImage

/-- The store is read back from what is printed for it. -/
def StoreFormat.Reads (format : StoreFormat) (image : StoreImage) : Prop :=
  format.fromStr (format.toStringPretty image) = some image

def StoreFormat.text (format : StoreFormat) (image : StoreImage) : List UInt8 :=
  utf8 (format.toStringPretty image)

/-! ### Saving and loading -/

/-- `store_path`, and the same with the extension `json.tmp`. -/
inductive StoreName where
  | store
  | tmp
  deriving Repr, DecidableEq

abbrev StoreFs := FileSystem StoreName UInt8

/-- Where a call of `save` is: before the snapshot, before `create_dir_all` (which has
nothing to do for a path without a parent), before the temporary file is opened, written
and renamed, or done. -/
inductive SavePhase where
  | snapshot
  | directory (text : List UInt8)
  | creating (text : List UInt8)
  | writing (text : List UInt8) (file : Nat)
  | replacing (text : List UInt8)
  | ended
  deriving Repr, DecidableEq

/-- The next operation of a save. `fault` is `none` when it succeeds; a write that fails
has then written that many bytes. A failed operation ends the save. -/
def SavePhase.next (format : StoreFormat) (image : StoreImage) (fs : StoreFs) (fault : Option Nat) :
    SavePhase → SavePhase × StoreFs
  | .snapshot => (.directory (format.text image), fs)
  | .directory text => (if fault.isNone then .creating text else .ended, fs)
  | .creating text =>
      if fault.isNone then
        let opened := fs.createTruncate .tmp
        (.writing text opened.1, opened.2)
      else (.ended, fs)
  | .writing text file =>
      match fault with
      | none => (.replacing text, fs.overwrite file text)
      | some accepted => (.ended, fs.overwrite file (text.take accepted))
  | .replacing _ =>
      (.ended, if fault.isNone then (fs.rename .tmp .store).getD fs else fs)
  | .ended => (.ended, fs)

def SavePhase.text? : SavePhase → Option (List UInt8)
  | .snapshot | .ended => none
  | .directory text | .creating text | .writing text _ | .replacing text => some text

/-- A save with nothing beside it in which every operation succeeds. -/
def saveAlone (format : StoreFormat) (image : StoreImage) (fs : StoreFs) : StoreFs :=
  ((fun s : SavePhase × StoreFs => s.1.next format image s.2 none)^[5] (.snapshot, fs)).2

def load (format : StoreFormat) (fs : StoreFs) : Option StoreImage :=
  match fs.read .store with
  | some bytes => (fromUtf8 bytes).bind format.fromStr
  | none => some ⟨⟨[], none⟩, ⟨none, none, none, none⟩⟩

/-- The relay's store, in memory and on disk, with the saves begun so far. -/
structure StoreDisk where
  admin : AdminState
  identity : StoredIdentity
  fs : StoreFs
  saves : List SavePhase

def StoreDisk.image (s : StoreDisk) : StoreImage := ⟨s.admin.store, s.identity⟩

/-- The identity at start: one that is stored has to be readable, otherwise a fresh one
is stored, which can fail. -/
def loadOrCreateIdentity (format : StoreFormat) (readable : String → Bool) (fresh : String)
    (saveOk : Bool) (image : StoreImage) (fs : StoreFs) : Option (StoreImage × StoreFs) :=
  match image.identity.identityHex with
  | some hex => if readable hex then some (image, fs) else none
  | none =>
      let image := { image with identity := { image.identity with identityHex := some fresh } }
      if saveOk then some (image, saveAlone format image fs) else none

def startUp (format : StoreFormat) (readable : String → Bool) (fresh : String) (saveOk : Bool)
    (shared : Shared) (fs : StoreFs) : Option StoreDisk := do
  let image ← load format fs
  let (image, fs) ← loadOrCreateIdentity format readable fresh saveOk image fs
  return ⟨⟨image.store, shared⟩, image.identity, fs, []⟩

/-! ### The requests -/

inductive StoreRequest where
  | createRoute (env : AdminEnv) (req : RouteReq)
  | updateRoute (id : String) (req : RouteReq)
  | deleteRoute (id : String)
  | saveSettings (req : SaveSettingsReq)

def StoreRequest.handle (adm : Admin) (s : AdminState) : StoreRequest → Reply × AdminState
  | .createRoute env req => s.createRoute adm env req
  | .updateRoute id req => s.updateRoute adm id req
  | .deleteRoute id => s.deleteRoute id
  | .saveSettings req => s.saveSettings req

/-- The handlers save on the way to every reply but an error. -/
def Reply.saves (reply : Reply) : Bool := reply.status < 400

inductive StoreMove where
  | request (req : StoreRequest)
  | save (task : Nat) (fault : Option Nat)

/-- The part of a request that is done under the write lock. -/
def StoreDisk.serve (adm : Admin) (s : StoreDisk) (req : StoreRequest) : StoreDisk :=
  let handled := req.handle adm s.admin
  { s with
    admin := handled.2
    saves := if handled.1.saves then s.saves ++ [.snapshot] else s.saves }

def StoreDisk.advance (format : StoreFormat) (s : StoreDisk) (task : Nat) (fault : Option Nat)
    (phase : SavePhase) : StoreDisk :=
  let next := phase.next format s.image s.fs fault
  { s with fs := next.2, saves := s.saves.set task next.1 }

/-- A save follows its request in steps of its own, between which anything can happen. -/
def StoreDisk.step (format : StoreFormat) (adm : Admin) (s : StoreDisk) :
    StoreMove → Option StoreDisk
  | .request req => some (s.serve adm req)
  | .save task fault => s.saves[task]?.map (s.advance format task fault)

/-- The store file is the text of `image`; or nothing has been written yet, and it is
the file from which `image` was loaded at the start. -/
def StoreDisk.Serialises (format : StoreFormat) (start s : StoreDisk) (image : StoreImage) :
    Prop :=
  s.fs.read .store = some (format.text image) ∨
    (s.fs.read .store = start.fs.read .store ∧ start.image = image)

/-! ### One save -/

namespace SavePhase

/-- The save has the temporary file open, or has written it and is about to rename it. -/
def holdsTmp : SavePhase → Bool
  | .writing _ _ | .replacing _ => true
  | .snapshot | .directory _ | .creating _ | .ended => false

/-- The next operation creates or truncates the temporary file. -/
def creates (fault : Option Nat) : SavePhase → Bool
  | .creating _ => fault.isNone
  | .snapshot | .directory _ | .writing _ _ | .replacing _ | .ended => false

/-- The temporary file is as this save left it. -/
def Ready (fs : StoreFs) : SavePhase → Prop
  | .writing _ file => fs.directory.lookup .tmp = some file ∧ fs.contents file = []
  | .replacing text => fs.read .tmp = some text
  | .snapshot | .directory _ | .creating _ | .ended => True

variable {format : StoreFormat} {image : StoreImage} {fs : StoreFs} {fault : Option Nat}
  {p : SavePhase}

theorem ready_of_not_holdsTmp (h : p.holdsTmp = false) (fs : StoreFs) : p.Ready fs := by
  cases p with
  | writing text file => cases h
  | replacing text => cases h
  | snapshot => trivial
  | directory text => trivial
  | creating text => trivial
  | ended => trivial

theorem not_holdsTmp_of_text? (h : p.text? = none) : p.holdsTmp = false := by
  cases p with
  | writing text file => cases h
  | replacing text => cases h
  | snapshot => rfl
  | directory text => rfl
  | creating text => rfl
  | ended => rfl

theorem not_holdsTmp_of_creates (h : p.creates fault = true) : p.holdsTmp = false := by
  cases p with
  | writing text file => cases h
  | replacing text => cases h
  | snapshot => rfl
  | directory text => rfl
  | creating text => rfl
  | ended => rfl

theorem eq_of_text?_none (h : p.text? = none) : p = .snapshot ∨ p = .ended := by
  cases p with
  | snapshot => exact .inl rfl
  | ended => exact .inr rfl
  | directory text => cases h
  | creating text => cases h
  | writing text file => cases h
  | replacing text => cases h

theorem next_ready (h : p.Ready fs) :
    (p.next format image fs fault).1.Ready (p.next format image fs fault).2 := by
  cases p with
  | snapshot => trivial
  | directory text => exact ready_of_not_holdsTmp (by cases fault <;> rfl) _
  | creating text =>
      cases fault with
      | none =>
          obtain ⟨hopened, hempty, -⟩ := fs.createTruncate_spec .tmp
          exact ⟨hopened, hempty⟩
      | some accepted => trivial
  | writing text file =>
      cases fault with
      | none => exact FileSystem.read_overwrite_of_empty h.1 h.2 text
      | some accepted => trivial
  | replacing text => trivial
  | ended => trivial

theorem next_fs (hholds : p.holdsTmp = false) (hcreates : p.creates fault = false) :
    (p.next format image fs fault).2 = fs := by
  cases p with
  | snapshot => rfl
  | directory text => rfl
  | creating text =>
      cases fault with
      | none => cases hcreates
      | some accepted => rfl
  | writing text file => cases hholds
  | replacing text => cases hholds
  | ended => rfl

theorem holdsTmp_next (h : (p.next format image fs fault).1.holdsTmp = true) :
    p.holdsTmp = true ∨ p.creates fault = true := by
  cases p with
  | snapshot => cases h
  | directory text => cases fault <;> cases h
  | creating text =>
      cases fault with
      | none => exact .inr rfl
      | some accepted => cases h
  | writing text file => exact .inl rfl
  | replacing text => exact .inl rfl
  | ended => cases h

theorem text?_next {text : List UInt8} (h : (p.next format image fs fault).1.text? = some text) :
    p.text? = some text ∨ (p = .snapshot ∧ text = format.text image) := by
  cases p with
  | snapshot => exact .inr ⟨rfl, (Option.some.inj h).symm⟩
  | directory text' =>
      cases fault with
      | none => exact .inl h
      | some accepted => cases h
  | creating text' =>
      cases fault with
      | none => exact .inl h
      | some accepted => cases h
  | writing text' file =>
      cases fault with
      | none => exact .inl h
      | some accepted => cases h
  | replacing text' => cases h
  | ended => cases h

theorem read_store_replacing (format : StoreFormat) (image : StoreImage) {text : List UInt8}
    (h : (SavePhase.replacing text).Ready fs) :
    ((SavePhase.replacing text).next format image fs none).2.read .store = some text := by
  obtain ⟨fs', hfs'⟩ := FileSystem.exists_rename h .store
  change ((fs.rename .tmp .store).getD fs).read .store = some text
  rw [hfs', Option.getD_some, FileSystem.read_rename hfs', if_pos rfl]
  exact h

/-- The store file changes only when a save that is ready renames the temporary file,
and then it is the text of that save. -/
theorem read_store_next (format : StoreFormat) (image : StoreImage) (fault : Option Nat) (h : p.Ready fs) :
    (p.next format image fs fault).2.read .store = fs.read .store ∨
      ∃ text, p.text? = some text ∧ (p.next format image fs fault).2.read .store = some text := by
  cases p with
  | snapshot => exact .inl rfl
  | directory text => exact .inl rfl
  | creating text =>
      left
      cases fault with
      | none => exact (fs.createTruncate_spec .tmp).2.2 .store (by decide)
      | some accepted => rfl
  | writing text file =>
      left
      cases fault with
      | none => exact FileSystem.read_overwrite_ne h.1 (by decide) _
      | some accepted => exact FileSystem.read_overwrite_ne h.1 (by decide) _
  | replacing text =>
      cases fault with
      | none => exact .inr ⟨text, rfl, read_store_replacing format image h⟩
      | some accepted => exact .inl rfl
  | ended => exact .inl rfl

theorem next_of_text? (format : StoreFormat) (image : StoreImage) {text : List UInt8} (h : p.Ready fs)
    (htext : p.text? = some text) :
    (p.next format image fs none).1.text? = some text ∨
      ((p.next format image fs none).1 = .ended ∧ (p.next format image fs none).2.read .store = some text) := by
  cases p with
  | snapshot => cases htext
  | directory text' => exact .inl htext
  | creating text' => exact .inl htext
  | writing text' file => exact .inl htext
  | replacing text' =>
      obtain rfl := Option.some.inj htext
      exact .inr ⟨rfl, read_store_replacing format image h⟩
  | ended => cases htext

end SavePhase

end Seamless.Relay
