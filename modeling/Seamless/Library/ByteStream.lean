import Mathlib.Data.List.Basic
import Mathlib.Tactic.Common

/-!
Byte streams as a program sees them through an asynchronous runtime. A source
hands out its content in chunks that the reader cannot choose; a sink accepts
content until it is told to fail. The element and error types are arbitrary.
-/

namespace Seamless.Library.ByteStream

variable {α ε : Type*}

inductive Ending (ε : Type*) where
  | eof
  | failed (e : ε)
  deriving Repr, DecidableEq

/-- A stream cut into the pieces in which it arrives. An empty piece would
read as end-of-stream, so there is none. -/
structure Source (α ε : Type*) where
  chunks : List (List α)
  ending : Ending ε
  nonempty : ∀ chunk ∈ chunks, chunk ≠ []

namespace Source

def content (s : Source α ε) : List α := s.chunks.flatten

def ofList (bytes : List α) : Source α ε where
  chunks := if bytes.isEmpty then [] else [bytes]
  ending := .eof
  nonempty := by
    intro chunk hchunk
    split at hchunk
    · simp at hchunk
    · simp_all

@[simp] theorem content_ofList (bytes : List α) :
    (ofList bytes : Source α ε).content = bytes := by
  cases bytes <;> simp [ofList, content]

def tail (s : Source α ε) (rest : List (List α))
    (h : ∀ chunk ∈ rest, chunk ≠ []) : Source α ε :=
  { s with chunks := rest, nonempty := h }

@[simp] theorem content_tail (s : Source α ε) (rest : List (List α))
    (h : ∀ chunk ∈ rest, chunk ≠ []) : (s.tail rest h).content = rest.flatten := rfl

@[simp] theorem ending_tail (s : Source α ε) (rest : List (List α))
    (h : ∀ chunk ∈ rest, chunk ≠ []) : (s.tail rest h).ending = s.ending := rfl

end Source

inductive ReadError (ε : Type*) where
  | unexpectedEof
  | failed (e : ε)
  deriving Repr, DecidableEq

def Ending.error : Ending ε → ReadError ε
  | .eof => .unexpectedEof
  | .failed e => .failed e

/-- Take `n` elements off a list of chunks, chunk by chunk, splitting the last
one when it is longer than what is still missing. `none` when the chunks run
out first. -/
def takeChunks : Nat → List (List α) → Option (List α) × List (List α)
  | 0, chunks => (some [], chunks)
  | _ + 1, [] => (none, [])
  | n + 1, chunk :: chunks =>
      if chunk.length ≤ n + 1 then
        let next := takeChunks (n + 1 - chunk.length) chunks
        (next.1.map (chunk ++ ·), next.2)
      else (some (chunk.take (n + 1)), chunk.drop (n + 1) :: chunks)

theorem takeChunks_nonempty (n : Nat) (chunks : List (List α))
    (h : ∀ chunk ∈ chunks, chunk ≠ []) :
    ∀ chunk ∈ (takeChunks n chunks).2, chunk ≠ [] := by
  induction chunks generalizing n with
  | nil => cases n <;> simp [takeChunks]
  | cons chunk chunks ih =>
      cases n with
      | zero => simpa [takeChunks] using h
      | succ n =>
          simp only [takeChunks]
          split
          · exact ih _ fun c hc => h c (List.mem_cons_of_mem _ hc)
          · rename_i hlong
            intro c hc
            rcases List.mem_cons.mp hc with rfl | hc
            · simp only [ne_eq, List.drop_eq_nil_iff]
              omega
            · exact h c (List.mem_cons_of_mem _ hc)

theorem takeChunks_of_le (n : Nat) (chunks : List (List α))
    (h : n ≤ chunks.flatten.length) :
    (takeChunks n chunks).1 = some (chunks.flatten.take n) ∧
      (takeChunks n chunks).2.flatten = chunks.flatten.drop n := by
  induction chunks generalizing n with
  | nil =>
      have hn : n = 0 := by simpa using h
      subst n
      simp [takeChunks]
  | cons chunk chunks ih =>
      cases n with
      | zero => simp [takeChunks]
      | succ n =>
          simp only [List.flatten_cons, List.length_append] at h
          simp only [takeChunks, List.flatten_cons]
          split
          · rename_i hle
            obtain ⟨hvalue, hrest⟩ := ih (n + 1 - chunk.length) (by omega)
            constructor
            · rw [hvalue, List.take_append, List.take_of_length_le hle]
              rfl
            · rw [hrest, List.drop_append, List.drop_of_length_le hle, List.nil_append]
          · rename_i hlong
            have hlt : n + 1 ≤ chunk.length := by omega
            constructor
            · rw [List.take_append_of_le_length hlt]
            · rw [List.flatten_cons, List.drop_append_of_le_length hlt]

theorem takeChunks_of_lt (n : Nat) (chunks : List (List α))
    (h : chunks.flatten.length < n) :
    takeChunks n chunks = (none, []) := by
  induction chunks generalizing n with
  | nil =>
      cases n with
      | zero => simp at h
      | succ n => rfl
  | cons chunk chunks ih =>
      cases n with
      | zero => simp at h
      | succ n =>
          simp only [List.flatten_cons, List.length_append] at h
          simp only [takeChunks]
          rw [if_pos (by omega), ih _ (by omega)]
          rfl

/-- Read exactly `n` elements. Whatever was read before a failure is gone. -/
def readExact (n : Nat) (s : Source α ε) : Except (ReadError ε) (List α) × Source α ε :=
  let taken := takeChunks n s.chunks
  let rest := s.tail taken.2 (takeChunks_nonempty n s.chunks s.nonempty)
  match taken.1 with
  | some bytes => (.ok bytes, rest)
  | none => (.error s.ending.error, rest)

/-- An exact read that finds enough content returns its first `n` elements and
leaves exactly the others, however the content is cut. -/
theorem readExact_of_le {n : Nat} {s : Source α ε} (h : n ≤ s.content.length) :
    (readExact n s).1 = .ok (s.content.take n) ∧
      (readExact n s).2.content = s.content.drop n ∧
      (readExact n s).2.ending = s.ending := by
  obtain ⟨hvalue, hrest⟩ := takeChunks_of_le n s.chunks h
  simp only [readExact, hvalue]
  exact ⟨rfl, hrest, rfl⟩

theorem readExact_of_lt {n : Nat} {s : Source α ε} (h : s.content.length < n) :
    (readExact n s).1 = .error s.ending.error ∧ (readExact n s).2.content = [] := by
  have htaken := takeChunks_of_lt n s.chunks h
  refine ⟨?_, ?_⟩ <;> simp [readExact, htaken]

/-- One read into a buffer of `n` elements: at most one chunk, cut when it is
longer than the buffer. End-of-stream reads as nothing. -/
def Source.read (s : Source α ε) (n : Nat) : Except ε (List α) × Source α ε :=
  match h : s.chunks with
  | [] =>
      match s.ending with
      | .eof => (.ok [], s)
      | .failed e => (.error e, s)
  | chunk :: chunks =>
      have hnonempty : ∀ c ∈ chunk :: chunks, c ≠ [] := h ▸ s.nonempty
      if hlong : n < chunk.length then
        (.ok (chunk.take n), s.tail (chunk.drop n :: chunks) (by
          intro c hc
          rcases List.mem_cons.mp hc with rfl | hc
          · simpa using hlong
          · exact hnonempty c (by simp [hc])))
      else (.ok chunk, s.tail chunks fun c hc => hnonempty c (by simp [hc]))

theorem Source.read_content {n : Nat} {s s' : Source α ε} {bytes : List α}
    (h : s.read n = (.ok bytes, s')) : bytes ++ s'.content = s.content ∧ s'.ending = s.ending := by
  unfold Source.read at h
  split at h
  · split at h
    · obtain ⟨hbytes, rfl⟩ := Prod.mk.inj h
      cases hbytes
      exact ⟨rfl, rfl⟩
    · simp at h
  · rename_i chunk chunks hchunks
    split at h
    · obtain ⟨hbytes, rfl⟩ := Prod.mk.inj h
      cases hbytes
      refine ⟨?_, rfl⟩
      simp only [Source.content, Source.tail, hchunks, List.flatten_cons]
      rw [← List.append_assoc, List.take_append_drop]
    · obtain ⟨hbytes, rfl⟩ := Prod.mk.inj h
      cases hbytes
      simp [Source.content, hchunks, Source.tail]

theorem Source.read_spec {n : Nat} {s s' : Source α ε} {bytes : List α}
    (h : s.read n = (.ok bytes, s')) (hn : 0 < n) :
    bytes.length ≤ n ∧ (bytes = [] ↔ s.content = []) ∧
      ∀ m, (∀ chunk ∈ s.chunks, chunk.length ≤ m) →
        bytes.length ≤ m ∧ ∀ chunk ∈ s'.chunks, chunk.length ≤ m := by
  unfold Source.read at h
  split at h
  · rename_i hchunks
    split at h
    · obtain ⟨hbytes, rfl⟩ := Prod.mk.inj h
      cases hbytes
      refine ⟨Nat.zero_le _, by simp [Source.content, hchunks], fun m hm => ⟨Nat.zero_le _, hm⟩⟩
    · simp at h
  · rename_i chunk chunks hchunks
    have hne : chunk ≠ [] := s.nonempty chunk (by simp [hchunks])
    split at h
    · obtain ⟨hbytes, rfl⟩ := Prod.mk.inj h
      cases hbytes
      refine ⟨List.length_take_le _ _, ?_, ?_⟩
      · simp [Source.content, hchunks, hne, Nat.ne_of_gt hn]
      · intro m hm
        rw [hchunks, List.forall_mem_cons] at hm
        obtain ⟨hfirst, hrest⟩ := hm
        refine ⟨Nat.le_trans (List.length_take_le' _ _) hfirst, ?_⟩
        simp only [Source.tail, List.forall_mem_cons, List.length_drop]
        exact ⟨by omega, hrest⟩
    · rename_i hshort
      obtain ⟨hbytes, rfl⟩ := Prod.mk.inj h
      cases hbytes
      refine ⟨by omega, by simp [Source.content, hchunks, hne], ?_⟩
      intro m hm
      rw [hchunks, List.forall_mem_cons] at hm
      exact hm

theorem Source.read_of_eof {s : Source α ε} (h : s.ending = .eof) (n : Nat) :
    ∃ bytes s', s.read n = (.ok bytes, s') := by
  unfold Source.read
  split
  · rw [h]
    exact ⟨_, _, rfl⟩
  · split
    · exact ⟨_, _, rfl⟩
    · exact ⟨_, _, rfl⟩

theorem Source.eq_of_chunks {s t : Source α ε} (hchunks : s.chunks = t.chunks)
    (hending : s.ending = t.ending) : s = t := by
  cases s
  cases t
  simp only at hchunks hending
  subst hchunks hending
  rfl

theorem Source.read_ofList (l : List α) (n : Nat) :
    (ofList l : Source α ε).read n = (.ok (l.take n), ofList (l.drop n)) := by
  cases l with
  | nil => simp [read, ofList]
  | cons a l =>
      unfold read
      split
      · rename_i hchunks
        simp [ofList] at hchunks
      · rename_i chunk chunks hchunks
        obtain ⟨rfl, rfl⟩ : a :: l = chunk ∧ [] = chunks := by simpa [ofList] using hchunks
        split
        · rename_i hlong
          refine Prod.ext rfl (eq_of_chunks ?_ rfl)
          have hne : (a :: l).drop n ≠ [] := by
            rw [ne_eq, List.drop_eq_nil_iff]
            omega
          simp [tail, ofList, hne]
        · rw [List.take_of_length_le (by omega), List.drop_of_length_le (by omega)]
          rfl

/-- The stream arrives one element at a time. -/
def Source.singles (bytes : List α) : Source α ε where
  chunks := bytes.map fun b => [b]
  ending := .eof
  nonempty := by simp

@[simp] theorem Source.content_singles (bytes : List α) :
    (singles bytes : Source α ε).content = bytes := by
  rw [singles, content]
  induction bytes with
  | nil => rfl
  | cons b bytes ih => simpa using ih

theorem Source.content_of_read_error {n : Nat} {s s' : Source α ε} {e : ε}
    (h : s.read n = (.error e, s')) : s'.content = s.content := by
  unfold Source.read at h
  split at h
  · split at h
    · simp at h
    · rw [(Prod.mk.inj h).2]
  · split at h <;> simp at h

/-- A stream that is written to. `fault` is the number of further elements it
accepts before it fails, or `none` when it never does. -/
structure Sink (α ε : Type*) where
  written : List α
  fault : Option (Nat × ε)

namespace Sink

def reliable (written : List α) : Sink α ε := ⟨written, none⟩

/-- Write all of `bytes`; a failing sink keeps what it accepted before. -/
def writeAll (w : Sink α ε) (bytes : List α) : Except ε Unit × Sink α ε :=
  match w.fault with
  | none => (.ok (), { w with written := w.written ++ bytes })
  | some (room, e) =>
      if bytes.length ≤ room then
        (.ok (), ⟨w.written ++ bytes, some (room - bytes.length, e)⟩)
      else (.error e, ⟨w.written ++ bytes.take room, some (0, e)⟩)

/-- Flushing reports a failure that is due. -/
def flush (w : Sink α ε) : Except ε Unit × Sink α ε :=
  match w.fault with
  | some (0, e) => (.error e, w)
  | _ => (.ok (), w)

@[simp] theorem writeAll_reliable (written bytes : List α) :
    (reliable written : Sink α ε).writeAll bytes =
      (.ok (), reliable (written ++ bytes)) := rfl

@[simp] theorem flush_reliable (written : List α) :
    (reliable written : Sink α ε).flush = (.ok (), reliable written) := rfl

/-- A write appends a prefix of the bytes it was given, and all of them when
it reports success. -/
theorem writeAll_spec (w : Sink α ε) (bytes : List α) :
    ∃ accepted, accepted <+: bytes ∧
      (w.writeAll bytes).2.written = w.written ++ accepted ∧
      ((w.writeAll bytes).1 = .ok () → accepted = bytes) := by
  unfold writeAll
  split
  · exact ⟨bytes, List.prefix_rfl, rfl, fun _ => rfl⟩
  · rename_i room e _
    split
    · exact ⟨bytes, List.prefix_rfl, rfl, fun _ => rfl⟩
    · exact ⟨bytes.take room, List.take_prefix _ _, rfl, by simp⟩

@[simp] theorem flush_written (w : Sink α ε) : w.flush.2.written = w.written := by
  unfold flush
  split <;> rfl

end Sink

end Seamless.Library.ByteStream
