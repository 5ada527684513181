import Seamless.Relay.TenantIsolation

/-!
How the loop that buffers a header block ends, for one public stream cut in different
ways. The loop looks for the blank line after each read, and for the size only when it
has not found one, so it may run past the size by one read.
-/

namespace Seamless.Relay

open Seamless.Common
open Seamless.Library
open Seamless.Library.ByteStream
open Seamless.Library.Text

inductive HeadVerdict where
  | complete
  -- Answered 431.
  | oversized
  -- The connection is dropped.
  | eof
  deriving DecidableEq

/-- The verdict of `route_http`, where no read failed and the timer did not fire. -/
def headVerdict : HeadRead × List UInt8 × ByteSource → Option HeadVerdict
  | (some (.ok true), _, _) => some .complete
  | (some (.ok false), head, _) =>
      if maxHeadBytes < head.length then some .oversized else some .eof
  | (some (.error _), _, _) => none
  | (none, _, _) => none

/-- The source delivers the content and then ends. -/
structure Delivers (content : List UInt8) (s : ByteSource) : Prop where
  content_eq : s.content = content
  ending : s.ending = .eof

/-- However the content is delivered, the loop ends in the same way, keeps every byte, and
a complete head reaches up to the first blank line. -/
structure SegmentationFree (content : List UInt8) : Prop where
  verdict : ∃ verdict, ∀ s reads, Delivers content s → content.length < reads →
    headVerdict (readHead reads [] s) = some verdict
  buffered : ∀ s reads, Delivers content s →
    (readHead reads [] s).2.1 ++ (readHead reads [] s).2.2.content = content ∧
      (headVerdict (readHead reads [] s) = some .complete →
        ∃ i, windowPosition blankLine (readHead reads [] s).2.1 = some i ∧
          windowPosition blankLine content = some i)

/-- What `route_http` does with a buffered head. -/
def Ingress.onVerdict (ing : Ingress) (conn : Connection) (head : List UInt8)
    (rest : ByteSource) : HeadVerdict → Outcome × TunnelMap
  | .complete => ing.routeRequest conn head rest
  | .oversized =>
      (.responded (errorResponse "431 Request Header Fields Too Large" "" conn.isHttps),
        ing.tunnels)
  | .eof => (.dropped, ing.tunnels)

theorem Ingress.routeHttp_of_verdict {ing : Ingress} {conn : Connection} {read : HeadRead}
    {head : List UInt8} {rest : ByteSource} {verdict : HeadVerdict}
    (hblocked : ing.geoipBlocked conn.peer.ip = false)
    (hread : readHead conn.reads [] conn.stream = (read, head, rest))
    (hverdict : headVerdict (read, head, rest) = some verdict) :
    ing.routeHttp conn = ing.onVerdict conn head rest verdict := by
  unfold routeHttp
  rw [hblocked, hread]
  rcases read with _ | kind | _ | _
  · cases hverdict
  · cases hverdict
  · rw [headVerdict] at hverdict
    by_cases hlarge : maxHeadBytes < head.length
    · rw [if_pos hlarge] at hverdict
      cases hverdict
      simp [hlarge, onVerdict]
    · rw [if_neg hlarge] at hverdict
      cases hverdict
      simp [hlarge, onVerdict]
  · cases hverdict
    rfl

section Loop

variable {m reads : Nat} {s : ByteSource}

theorem readHead_verdict (head : List UInt8)
    (hm : 4096 ≤ m ∨ ∀ chunk ∈ s.chunks, chunk.length ≤ m)
    (hending : s.ending = .eof) (hreads : s.content.length < reads)
    (hblank : windowPosition blankLine head = none) (hlength : head.length ≤ maxHeadBytes) :
    (headVerdict (readHead reads head s) = some .complete ∧
      ∃ i, windowPosition blankLine (head ++ s.content) = some i ∧ i + 4 ≤ maxHeadBytes + m) ∨
    (headVerdict (readHead reads head s) = some .oversized ∧
      maxHeadBytes < (head ++ s.content).length ∧
      ∀ i, windowPosition blankLine (head ++ s.content) = some i → maxHeadBytes + 1 < i + 4) ∨
    (headVerdict (readHead reads head s) = some .eof ∧
      (head ++ s.content).length ≤ maxHeadBytes ∧
      windowPosition blankLine (head ++ s.content) = none) := by
  -- Every read brings at least a byte, so the reads last until the stream ends.
  induction reads generalizing head s with
  | zero => omega
  | succ reads ih =>
      obtain ⟨bytes, s', hread⟩ := s.read_of_eof hending 4096
      obtain ⟨hcontent, hending'⟩ := s.read_content hread
      obtain ⟨hshort, hnil, hchunk⟩ := s.read_spec hread (by decide)
      have hall : head ++ bytes ++ s'.content = head ++ s.content := by
        rw [List.append_assoc, hcontent]
      have hbytes : bytes.length ≤ m := by
        rcases hm with hm | hm
        · omega
        · exact (hchunk m hm).1
      simp only [readHead, hread]
      split
      · rename_i hempty
        rw [hnil.mp (List.eq_nil_of_length_eq_zero hempty), List.append_nil]
        right
        right
        refine ⟨?_, hlength, hblank⟩
        rw [headVerdict, if_neg (by omega)]
      · rename_i hsome
        split
        · rename_i hfound
          obtain ⟨i, hi⟩ := Option.isSome_iff_exists.mp hfound
          left
          refine ⟨rfl, i, ?_, ?_⟩
          · rw [← hall]
            exact windowPosition_append blankLine_ne_nil hi _
          · have hend := (windowPosition_length hi).resolve_right blankLine_ne_nil
            have hfour : blankLine.length = 4 := rfl
            rw [List.length_append] at hend
            omega
        · rename_i hmissing
          rw [Bool.not_eq_true, Option.isSome_eq_false_iff, Option.isNone_iff_eq_none] at hmissing
          split
          · rename_i hlarge
            right
            left
            refine ⟨?_, ?_, ?_⟩
            · rw [headVerdict, if_pos hlarge]
            · rw [← hall, List.length_append]
              omega
            · intro i hi
              rw [← hall] at hi
              have hlt := lt_of_windowPosition_append blankLine_ne_nil hmissing hi
              have hfour : blankLine.length = 4 := rfl
              omega
          · rename_i hsmall
            rw [← hall]
            apply ih
            · rcases hm with hm | hm
              · exact .inl hm
              · exact .inr (hchunk m hm).2
            · rw [hending', hending]
            · rw [← hcontent, List.length_append] at hreads
              omega
            · exact hmissing
            · omega

theorem readHead_complete_of_piece (head : List UInt8) {l : List UInt8} {i : Nat}
    (hreads : l.length < reads) (hblank : windowPosition blankLine head = none)
    (hlength : head.length ≤ maxHeadBytes) (haligned : head.length % 4096 = 0)
    (hi : windowPosition blankLine (head ++ l) = some i) (hle : i + 4 ≤ maxHeadBytes + 4096) :
    headVerdict (readHead reads head (.ofList l)) = some .complete := by
  induction reads generalizing head l with
  | zero => omega
  | succ reads ih =>
      have hne : l ≠ [] := by
        rintro rfl
        rw [List.append_nil, hblank] at hi
        cases hi
      have hpos := List.length_pos_of_ne_nil hne
      have hall : head ++ l.take 4096 ++ l.drop 4096 = head ++ l := by
        rw [List.append_assoc, List.take_append_drop]
      simp only [readHead, Source.read_ofList, List.length_take]
      rw [if_neg (by omega)]
      split
      · rfl
      · rename_i hmissing
        rw [Bool.not_eq_true, Option.isSome_eq_false_iff, Option.isNone_iff_eq_none] at hmissing
        rw [← hall] at hi
        have hend := (windowPosition_length hi).resolve_right blankLine_ne_nil
        have hlt := lt_of_windowPosition_append blankLine_ne_nil hmissing hi
        have hfour : blankLine.length = 4 := rfl
        have hsize : maxHeadBytes = 16 * 4096 := rfl
        simp only [List.length_append, List.length_take, List.length_drop] at hend hlt
        have hbytes : min 4096 l.length = 4096 := by omega
        rw [List.length_append, List.length_take, hbytes, if_neg (by omega)]
        apply ih
        · rw [List.length_drop]
          omega
        · exact hmissing
        · rw [List.length_append, List.length_take, hbytes]
          omega
        · rw [List.length_append, List.length_take, hbytes]
          omega
        · exact hi

end Loop

/-- The first blank line ends so shortly behind the size that one read may reach it. -/
def EndsInLastRead (content : List UInt8) : Prop :=
  ∃ i, windowPosition blankLine content = some i ∧
    maxHeadBytes + 1 < i + 4 ∧ i + 4 ≤ maxHeadBytes + 4096

section Segmentation

variable {content : List UInt8} {s : ByteSource} {reads : Nat}

theorem verdict_of_delivers (h : Delivers content s) (hreads : content.length < reads) :
    (headVerdict (readHead reads [] s) = some .complete ∧
      ∃ i, windowPosition blankLine content = some i ∧ i + 4 ≤ maxHeadBytes + 4096) ∨
    (headVerdict (readHead reads [] s) = some .oversized ∧ maxHeadBytes < content.length ∧
      ∀ i, windowPosition blankLine content = some i → maxHeadBytes + 1 < i + 4) ∨
    (headVerdict (readHead reads [] s) = some .eof ∧ content.length ≤ maxHeadBytes ∧
      windowPosition blankLine content = none) := by
  have hcases := readHead_verdict [] (.inl (le_refl 4096)) h.ending
    (h.content_eq ▸ hreads) rfl (Nat.zero_le _)
  rwa [List.nil_append, h.content_eq] at hcases

/-- The verdict that does not depend on the cuts, outside the last read. -/
def plainVerdict (content : List UInt8) : HeadVerdict :=
  match windowPosition blankLine content with
  | some i => if i + 4 ≤ maxHeadBytes + 1 then .complete else .oversized
  | none => if maxHeadBytes < content.length then .oversized else .eof

theorem verdict_eq_plainVerdict (hfree : ¬ EndsInLastRead content) (h : Delivers content s)
    (hreads : content.length < reads) :
    headVerdict (readHead reads [] s) = some (plainVerdict content) := by
  unfold plainVerdict
  rcases verdict_of_delivers h hreads with
    ⟨hverdict, i, hi, hle⟩ | ⟨hverdict, hlarge, hlate⟩ | ⟨hverdict, hsmall, hnone⟩
  · have hearly : i + 4 ≤ maxHeadBytes + 1 := by
      by_contra hlate
      exact hfree ⟨i, hi, by omega, hle⟩
    rw [hverdict, hi]
    simp [hearly]
  · rw [hverdict]
    cases hi : windowPosition blankLine content with
    | some i =>
        have := hlate i hi
        simp [show ¬ i + 4 ≤ maxHeadBytes + 1 by omega]
    | none => simp [hlarge]
  · rw [hverdict, hnone]
    simp [show ¬ maxHeadBytes < content.length by omega]

theorem buffered_of_delivers (h : Delivers content s) :
    (readHead reads [] s).2.1 ++ (readHead reads [] s).2.2.content = content ∧
      (headVerdict (readHead reads [] s) = some .complete →
        ∃ i, windowPosition blankLine (readHead reads [] s).2.1 = some i ∧
          windowPosition blankLine content = some i) := by
  rcases hread : readHead reads [] s with ⟨read, head, rest⟩
  obtain ⟨hcontent, hblank⟩ := readHead_spec hread
  rw [List.nil_append, h.content_eq] at hcontent
  refine ⟨hcontent, ?_⟩
  intro hcomplete
  have hread' : read = some (.ok true) := by
    rcases read with _ | kind | _ | _
    · cases hcomplete
    · cases hcomplete
    · rw [headVerdict] at hcomplete
      split at hcomplete <;> cases hcomplete
    · rfl
  obtain ⟨i, hi⟩ := Option.isSome_iff_exists.mp (hblank hread')
  refine ⟨i, hi, ?_⟩
  rw [← hcontent]
  exact windowPosition_append blankLine_ne_nil hi _

theorem not_segmentationFree_of_endsInLastRead (h : EndsInLastRead content) :
    ¬ SegmentationFree content := by
  rintro ⟨⟨verdict, hverdict⟩, -⟩
  obtain ⟨i, hi, hlate, hle⟩ := h
  have hpiece := hverdict (.ofList content) _ ⟨Source.content_ofList _, rfl⟩ (Nat.lt_succ_self _)
  rw [readHead_complete_of_piece [] (Nat.lt_succ_self _) rfl (Nat.zero_le _) rfl hi hle] at hpiece
  have hsingles := hverdict (.singles content) _ ⟨Source.content_singles _, rfl⟩
    (Nat.lt_succ_self _)
  have hbytes : ∀ chunk ∈ (Source.singles content : ByteSource).chunks, chunk.length ≤ 1 := by
    simp [Source.singles]
  have hreads : (Source.singles content : ByteSource).content.length < content.length + 1 := by
    simp
  have hcases := readHead_verdict [] (.inr hbytes) rfl hreads rfl (Nat.zero_le _)
  rw [List.nil_append, Source.content_singles, hsingles, ← hpiece, hi] at hcases
  simp only [true_and, Option.some.injEq, reduceCtorEq, false_and, or_false] at hcases
  obtain ⟨j, rfl, hearly⟩ := hcases
  omega

/-- The loop ends in the same way for every way of delivering the stream, unless the first
blank line ends in the one read that may run past the size. -/
theorem segmentationFree_iff (content : List UInt8) :
    SegmentationFree content ↔ ¬ EndsInLastRead content := by
  constructor
  · intro hfree h
    exact not_segmentationFree_of_endsInLastRead h hfree
  · intro hfree
    exact ⟨⟨plainVerdict content, fun s reads h hreads => verdict_eq_plainVerdict hfree h hreads⟩,
      fun s reads h => buffered_of_delivers h⟩

end Segmentation

theorem windowPosition_replicate {b : UInt8} (h : b ≠ 13) (n : Nat) (more : List UInt8) :
    windowPosition blankLine (List.replicate n b ++ (blankLine ++ more)) = some n := by
  induction n with
  | zero => rfl
  | succ n ih =>
      rw [List.replicate_succ, List.cons_append, windowPosition, if_neg, ih]
      · rfl
      · simp [blankLine, Ne.symm h]

/-- Two bytes above the size, and it depends on the network whether the head is complete. -/
theorem not_segmentationFree_65538 :
    ¬ SegmentationFree (List.replicate 65534 65 ++ (blankLine ++ [])) := by
  apply not_segmentationFree_of_endsInLastRead
  exact ⟨65534, windowPosition_replicate (by decide) _ _, by decide, by decide⟩

end Seamless.Relay
