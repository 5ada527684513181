import Mathlib.Data.List.Perm.Basic

/-!
A bounded queue between tasks whose senders do not wait, and the accounts of what was sent
through such a queue: what was kept and what was lost on the way.
-/

namespace Seamless.Library

variable {α : Type*}

structure Mailbox (α : Type*) (capacity : Nat) where
  queue : List α
  fits : queue.length ≤ capacity

namespace Mailbox

variable {capacity : Nat}

def empty : Mailbox α capacity := ⟨[], Nat.zero_le _⟩

/-- A full mailbox takes nothing. -/
def trySend (m : Mailbox α capacity) (a : α) : Option (Mailbox α capacity) :=
  if h : m.queue.length < capacity then
    some ⟨m.queue ++ [a], by rw [List.length_append]; exact h⟩
  else none

def recv : Mailbox α capacity → Option (α × Mailbox α capacity)
  | ⟨[], _⟩ => none
  | ⟨a :: rest, h⟩ => some (a, ⟨rest, Nat.le_of_succ_le h⟩)

variable {m m' : Mailbox α capacity} {a : α}

theorem queue_trySend (h : m.trySend a = some m') : m'.queue = m.queue ++ [a] := by
  unfold trySend at h
  split at h
  · cases h
    rfl
  · cases h

theorem length_queue_of_trySend_none (h : m.trySend a = none) : m.queue.length = capacity := by
  unfold trySend at h
  split at h
  · cases h
  · rename_i hfull
    exact Nat.le_antisymm m.fits (Nat.le_of_not_lt hfull)

theorem queue_recv (h : m.recv = some (a, m')) : m.queue = a :: m'.queue := by
  obtain ⟨queue, hfits⟩ := m
  cases queue with
  | nil => cases h
  | cons b rest =>
      cases h
      rfl

end Mailbox

/-- All that was sent was kept or lost, and what was kept is in its order. -/
structure Accounts (sent kept lost : List α) : Prop where
  ordered : kept.Sublist sent
  complete : sent.Perm (kept ++ lost)

namespace Accounts

variable {sent kept lost gone : List α}

theorem nil : Accounts ([] : List α) [] [] := ⟨.slnil, .rfl⟩

theorem keep (h : Accounts sent kept lost) (a : α) : Accounts (sent ++ [a]) (kept ++ [a]) lost where
  ordered := h.ordered.append (List.Sublist.refl _)
  complete := by
    refine (h.complete.append_right [a]).trans ?_
    rw [List.append_assoc, List.append_assoc]
    exact List.perm_append_comm.append_left kept

theorem lose (h : Accounts sent kept lost) (a : α) : Accounts (sent ++ [a]) kept (lost ++ [a]) where
  ordered := h.ordered.trans (List.sublist_append_left _ _)
  complete := by
    rw [← List.append_assoc]
    exact h.complete.append_right [a]

theorem forget (h : Accounts sent (kept ++ gone) lost) : Accounts sent kept (lost ++ gone) where
  ordered := (List.sublist_append_left _ _).trans h.ordered
  complete := by
    refine h.complete.trans ?_
    rw [List.append_assoc]
    exact List.perm_append_comm.append_left kept

end Accounts

end Seamless.Library
