import Seamless.Common.ControlFrame
import Seamless.Library.ByteStream

/-!
Length-prefixed frames on a byte stream: a 4-byte big-endian length, then the
`bincode` body. The reader and the writer enforce the same size limit.
-/

namespace Seamless.Common

open Seamless.Library.ByteCodec
open Seamless.Library.ByteStream
open Bincode

inductive IoErrorKind where
  | unexpectedEof
  | other (code : Nat)
  deriving Repr, DecidableEq

inductive CodecError where
  | io (kind : IoErrorKind)
  | tooLarge (size : Nat)
  | decode (e : BincodeError)
  | eof
  deriving Repr, DecidableEq

abbrev ByteSource := Source UInt8 IoErrorKind

abbrev ByteSink := Sink UInt8 IoErrorKind

/-- A failure of a stream: how much it still accepts, and the error. -/
abbrev Fault := Option (Nat × IoErrorKind)

def ioError : ReadError IoErrorKind → IoErrorKind
  | .unexpectedEof => .unexpectedEof
  | .failed kind => kind

def writeFrame (w : ByteSink) (frame : ControlFrame) : Except CodecError Unit × ByteSink :=
  let body := serialize frame
  if 2 ^ 32 ≤ body.length then (.error (.tooLarge (2 ^ 32 - 1)), w)
  else if maxFrameBytes < body.length then (.error (.tooLarge body.length), w)
  else
    match w.writeAll (bigEndian 4 body.length) with
    | (.error kind, w) => (.error (.io kind), w)
    | (.ok _, w) =>
        match w.writeAll body with
        | (.error kind, w) => (.error (.io kind), w)
        | (.ok _, w) =>
            match w.flush with
            | (.error kind, w) => (.error (.io kind), w)
            | (.ok _, w) => (.ok (), w)

def readFrame (r : ByteSource) : Except CodecError ControlFrame × ByteSource :=
  match readExact 4 r with
  | (.error e, r) =>
      (.error (if ioError e = .unexpectedEof then .eof else .io (ioError e)), r)
  | (.ok lenBuf, r) =>
      let len := bigEndianValue lenBuf
      if maxFrameBytes < len then (.error (.tooLarge len), r)
      else
        match readExact len r with
        | (.error e, r) => (.error (.io (ioError e)), r)
        | (.ok body, r) =>
            match deserialize body with
            | .ok frame => (.ok frame, r)
            | .error e => (.error (.decode e), r)

/-- What a successful `write_frame` puts on the stream. -/
def frameBytes (frame : ControlFrame) : List UInt8 :=
  bigEndian 4 (serialize frame).length ++ serialize frame

def FrameFits (frame : ControlFrame) : Prop := (serialize frame).length ≤ maxFrameBytes

instance (frame : ControlFrame) : Decidable (FrameFits frame) :=
  inferInstanceAs (Decidable (_ ≤ _))

@[simp] theorem length_frameBytes (frame : ControlFrame) :
    (frameBytes frame).length = 4 + (serialize frame).length := by
  simp [frameBytes]

theorem writeFrame_tooLarge {frame : ControlFrame} (w : ByteSink) (h : ¬ FrameFits frame) :
    ∃ size, writeFrame w frame = (.error (.tooLarge size), w) := by
  unfold FrameFits at h
  simp only [writeFrame]
  split
  · exact ⟨_, rfl⟩
  · rw [if_pos (by omega)]
    exact ⟨_, rfl⟩

theorem writeFrame_of_fits {frame : ControlFrame} (w : ByteSink) (h : FrameFits frame) :
    writeFrame w frame =
      match w.writeAll (bigEndian 4 (serialize frame).length) with
      | (.error kind, w) => (.error (.io kind), w)
      | (.ok _, w) =>
          match w.writeAll (serialize frame) with
          | (.error kind, w) => (.error (.io kind), w)
          | (.ok _, w) =>
              match w.flush with
              | (.error kind, w) => (.error (.io kind), w)
              | (.ok _, w) => (.ok (), w) := by
  have hlimit : (serialize frame).length ≤ 65536 := h
  have hsmall : ¬ 2 ^ 32 ≤ (serialize frame).length := by omega
  have hfits : ¬ maxFrameBytes < (serialize frame).length := by
    simpa [FrameFits] using h
  rw [writeFrame]
  simp only [if_neg hsmall, if_neg hfits]

theorem writeFrame_reliable {frame : ControlFrame} (written : List UInt8)
    (h : FrameFits frame) :
    writeFrame (Sink.reliable written) frame =
      (.ok (), Sink.reliable (written ++ frameBytes frame)) := by
  rw [writeFrame_of_fits _ h]
  simp [frameBytes]

/-- Whatever the stream does, `write_frame` appends a prefix of one encoded
frame, and the whole of it when it reports success. -/
theorem writeFrame_spec (w : ByteSink) (frame : ControlFrame) :
    ∃ accepted, accepted <+: frameBytes frame ∧
      (writeFrame w frame).2.written = w.written ++ accepted ∧
      ((writeFrame w frame).1 = .ok () → accepted = frameBytes frame ∧ FrameFits frame) := by
  by_cases hfits : FrameFits frame
  · rw [writeFrame_of_fits w hfits]
    obtain ⟨head, hhead, hwritten, hall⟩ :=
      w.writeAll_spec (bigEndian 4 (serialize frame).length)
    rcases hheader : w.writeAll (bigEndian 4 (serialize frame).length) with ⟨kind | _, w₁⟩
    · simp only [hheader] at hwritten
      exact ⟨head, hhead.trans (List.prefix_append _ _), hwritten, by simp⟩
    · simp only [hheader, forall_const] at hwritten hall
      subst hall
      obtain ⟨tail, htail, hwritten', hall'⟩ := w₁.writeAll_spec (serialize frame)
      rcases hbody : w₁.writeAll (serialize frame) with ⟨kind | _, w₂⟩
      · simp only [hbody] at hwritten'
        refine ⟨bigEndian 4 (serialize frame).length ++ tail,
          (List.prefix_append_right_inj _).mpr htail, ?_, by simp [hbody]⟩
        simp [hbody, hwritten', hwritten]
      · simp only [hbody, forall_const] at hwritten' hall'
        subst hall'
        refine ⟨frameBytes frame, List.prefix_rfl, ?_, fun _ => ⟨rfl, hfits⟩⟩
        have hflush := w₂.flush_written
        rcases hdone : w₂.flush with ⟨kind | _, w₃⟩ <;>
          simp only [hdone] at hflush <;>
          simp [hbody, hdone, hflush, hwritten', hwritten, frameBytes]
  · obtain ⟨size, hwrite⟩ := writeFrame_tooLarge w hfits
    exact ⟨[], List.nil_prefix, by simp [hwrite], by simp [hwrite]⟩

theorem length_utf8_ofList_le (text : List Char) :
    (utf8 (String.ofList text)).length ≤ 4 * text.length := by
  rw [utf8_eq_flatMap, String.toList_ofList]
  induction text with
  | nil => simp
  | cons c text ih =>
      have hc := c.utf8Size_le_four
      simp only [List.flatMap_cons, List.length_append, List.length_cons,
        String.length_utf8EncodeChar]
      omega

theorem fits_newConn {text : List Char} (h : text.length ≤ 1000) :
    FrameFits (.newConn (String.ofList text)) := by
  have hutf8 := length_utf8_ofList_le text
  have hlimit : maxFrameBytes = 65536 := rfl
  simp only [FrameFits, serialize, encodeString, List.length_append, length_littleEndian, hlimit]
  omega

/-- Reading back one frame, with anything behind it and however it is cut. -/
theorem readFrame_frameBytes {frame : ControlFrame} {r : ByteSource} {rest : List UInt8}
    (hfits : FrameFits frame) (hcontent : r.content = frameBytes frame ++ rest) :
    (readFrame r).1 = .ok frame ∧ (readFrame r).2.content = rest ∧
      (readFrame r).2.ending = r.ending := by
  have hlimit : (serialize frame).length ≤ 65536 := hfits
  have hlen : 4 ≤ r.content.length := by
    rw [hcontent]
    simp
    omega
  obtain ⟨hvalue, hafter, hending⟩ := readExact_of_le hlen
  have htake : r.content.take 4 = bigEndian 4 (serialize frame).length := by
    rw [hcontent, frameBytes, List.append_assoc, List.take_left' (by simp)]
  have hdrop : r.content.drop 4 = serialize frame ++ rest := by
    rw [hcontent, frameBytes, List.append_assoc, List.drop_left' (by simp)]
  have hprefix : bigEndianValue (bigEndian 4 (serialize frame).length) =
      (serialize frame).length :=
    bigEndianValue_bigEndian _ _ (by norm_num; omega)
  rw [htake] at hvalue
  rw [hdrop] at hafter
  rcases hheader : readExact 4 r with ⟨e | lenBuf, r₁⟩
  · simp [hheader] at hvalue
  · simp only [hheader, Except.ok.injEq] at hvalue hafter hending
    subst hvalue
    have hbody : (serialize frame).length ≤ r₁.content.length := by
      rw [hafter]
      simp
    obtain ⟨hvalue', hafter', hending'⟩ := readExact_of_le hbody
    rw [hafter, List.take_left] at hvalue'
    rw [hafter, List.drop_left] at hafter'
    rcases hread : readExact (serialize frame).length r₁ with ⟨e | body, r₂⟩
    · simp [hread] at hvalue'
    · simp only [hread, Except.ok.injEq] at hvalue' hafter' hending'
      subst hvalue'
      have hdecode : deserialize (serialize frame) = .ok frame :=
        deserialize_serialize (by norm_num; omega)
      have hnot : ¬ maxFrameBytes < (serialize frame).length := by
        simpa [FrameFits] using hfits
      simp only [readFrame, hheader, hprefix, if_neg hnot, hread, hdecode]
      exact ⟨trivial, hafter', hending'.trans hending⟩

/-- The bytes are those of a sequence of frames in `language`, the last of them
possibly cut short. -/
def Writes (language : List ControlFrame → Prop) (bytes : List UInt8) : Prop :=
  ∃ frames, language frames ∧ (∀ frame ∈ frames, FrameFits frame) ∧
    bytes <+: frames.flatMap frameBytes

structure Wrote (frames : List ControlFrame) (bytes : List UInt8) : Prop where
  fits : ∀ frame ∈ frames, FrameFits frame
  bytes_eq : bytes = frames.flatMap frameBytes

theorem Wrote.nil : Wrote [] [] := ⟨by simp, rfl⟩

theorem Wrote.writes {language : List ControlFrame → Prop} {frames : List ControlFrame}
    {bytes : List UInt8} (h : Wrote frames bytes) (hframes : language frames) :
    Writes language bytes :=
  ⟨frames, hframes, h.fits, h.bytes_eq ▸ List.prefix_rfl⟩

theorem Wrote.snoc {frames : List ControlFrame} {frame : ControlFrame} {w : ByteSink}
    (h : Wrote frames w.written) (hwrite : (writeFrame w frame).1 = .ok ()) :
    Wrote (frames ++ [frame]) (writeFrame w frame).2.written := by
  obtain ⟨accepted, -, hwritten, hall⟩ := writeFrame_spec w frame
  obtain ⟨rfl, hfits⟩ := hall hwrite
  refine ⟨?_, by simp [hwritten, h.bytes_eq]⟩
  intro f hf
  rcases List.mem_append.mp hf with hf | hf
  · exact h.fits f hf
  · obtain rfl : f = frame := by simpa using hf
    exact hfits

theorem Wrote.writes_snoc {language : List ControlFrame → Prop} {frames : List ControlFrame}
    {frame : ControlFrame} {w : ByteSink} (h : Wrote frames w.written)
    (hbefore : language frames) (hafter : language (frames ++ [frame])) :
    Writes language (writeFrame w frame).2.written := by
  by_cases hfits : FrameFits frame
  · obtain ⟨accepted, haccepted, hwritten, -⟩ := writeFrame_spec w frame
    refine ⟨frames ++ [frame], hafter, ?_, ?_⟩
    · intro f hf
      rcases List.mem_append.mp hf with hf | hf
      · exact h.fits f hf
      · obtain rfl : f = frame := by simpa using hf
        exact hfits
    · rw [hwritten, h.bytes_eq, List.flatMap_append]
      simpa using haccepted
  · obtain ⟨size, hwrite⟩ := writeFrame_tooLarge w hfits
    rw [hwrite]
    exact h.writes hbefore

def writeFrames (w : ByteSink) : List ControlFrame → Except CodecError Unit × ByteSink
  | [] => (.ok (), w)
  | frame :: frames =>
      match writeFrame w frame with
      | (.ok _, w) => writeFrames w frames
      | (.error e, w) => (.error e, w)

def readFrames : Nat → ByteSource → Except CodecError (List ControlFrame) × ByteSource
  | 0, r => (.ok [], r)
  | n + 1, r =>
      match readFrame r with
      | (.ok frame, r) =>
          match readFrames n r with
          | (.ok frames, r) => (.ok (frame :: frames), r)
          | (.error e, r) => (.error e, r)
      | (.error e, r) => (.error e, r)

theorem writeFrames_reliable {frames : List ControlFrame} {written : List UInt8}
    {w : ByteSink} (h : writeFrames (Sink.reliable written) frames = (.ok (), w)) :
    (∀ frame ∈ frames, FrameFits frame) ∧
      w.written = written ++ frames.flatMap frameBytes := by
  induction frames generalizing written with
  | nil =>
      cases h
      simp [Sink.reliable]
  | cons frame frames ih =>
      by_cases hfits : FrameFits frame
      · rw [writeFrames, writeFrame_reliable written hfits] at h
        obtain ⟨hall, hwritten⟩ := ih h
        refine ⟨?_, by simp [hwritten]⟩
        intro f hf
        rcases List.mem_cons.mp hf with rfl | hf
        · exact hfits
        · exact hall f hf
      · obtain ⟨size, hwrite⟩ := writeFrame_tooLarge (Sink.reliable written) hfits
        rw [writeFrames, hwrite] at h
        simp at h

theorem readFrames_frameBytes {frames : List ControlFrame} {r : ByteSource}
    {rest : List UInt8} (hfits : ∀ frame ∈ frames, FrameFits frame)
    (hcontent : r.content = frames.flatMap frameBytes ++ rest) :
    (readFrames frames.length r).1 = .ok frames ∧
      (readFrames frames.length r).2.content = rest := by
  induction frames generalizing r with
  | nil => simpa [readFrames] using hcontent
  | cons frame frames ih =>
      have hfirst : r.content = frameBytes frame ++ (frames.flatMap frameBytes ++ rest) := by
        simpa using hcontent
      obtain ⟨hvalue, hafter, -⟩ := readFrame_frameBytes (hfits frame (by simp)) hfirst
      rcases hread : readFrame r with ⟨e | f, r₁⟩
      · simp [hread] at hvalue
      · simp only [hread, Except.ok.injEq] at hvalue hafter
        subst hvalue
        obtain ⟨hvalues, hrest⟩ := ih (fun f hf => hfits f (by simp [hf])) hafter
        rcases hmore : readFrames frames.length r₁ with ⟨e | fs, r₂⟩
        · simp [hmore] at hvalues
        · simp only [hmore, Except.ok.injEq] at hvalues hrest
          simp [readFrames, hread, hmore, hvalues, hrest]

theorem readFrame_cases (r : ByteSource) :
    (r.content.length < 4 ∧ (readFrame r).2.content = [] ∧ ∃ e, (readFrame r).1 = .error e) ∨
    (4 ≤ r.content.length ∧ maxFrameBytes < bigEndianValue (r.content.take 4) ∧
      (readFrame r).2.content = r.content.drop 4 ∧
      (readFrame r).1 = .error (.tooLarge (bigEndianValue (r.content.take 4)))) ∨
    (r.content.length < 4 + bigEndianValue (r.content.take 4) ∧
      bigEndianValue (r.content.take 4) ≤ maxFrameBytes ∧
      (readFrame r).2.content = [] ∧ ∃ e, (readFrame r).1 = .error e) ∨
    (4 + bigEndianValue (r.content.take 4) ≤ r.content.length ∧
      bigEndianValue (r.content.take 4) ≤ maxFrameBytes ∧
      (readFrame r).2.content = r.content.drop (4 + bigEndianValue (r.content.take 4))) := by
  rcases Nat.lt_or_ge r.content.length 4 with hshort | hlen
  · obtain ⟨hvalue, hafter⟩ := readExact_of_lt hshort
    rcases hheader : readExact 4 r with ⟨e | lenBuf, r₁⟩
    · simp only [hheader] at hafter
      exact .inl ⟨hshort, by simp [readFrame, hheader, hafter],
        by simp [readFrame, hheader]⟩
    · simp [hheader] at hvalue
  · right
    obtain ⟨hvalue, hafter, -⟩ := readExact_of_le hlen
    rcases hheader : readExact 4 r with ⟨e | lenBuf, r₁⟩
    · simp [hheader] at hvalue
    · simp only [hheader, Except.ok.injEq] at hvalue hafter
      subst hvalue
      set len := bigEndianValue (r.content.take 4)
      rcases Nat.lt_or_ge maxFrameBytes len with hlarge | hlimit
      · refine .inl ⟨hlen, hlarge, ?_, ?_⟩ <;>
          simp [readFrame, hheader, hlarge, hafter, len]
      · right
        have hnot : ¬ maxFrameBytes < len := Nat.not_lt.mpr hlimit
        rcases Nat.lt_or_ge r₁.content.length len with hcut | hfull
        · obtain ⟨hvalue', hafter'⟩ := readExact_of_lt hcut
          rcases hread : readExact len r₁ with ⟨e | body, r₂⟩
          · simp only [hread] at hafter'
            refine .inl ⟨?_, hlimit, ?_, ?_⟩
            · rw [hafter, List.length_drop] at hcut
              omega
            · simp [readFrame, hheader, hnot, len, hread, hafter']
            · simp [readFrame, hheader, hnot, len, hread]
          · simp [hread] at hvalue'
        · obtain ⟨hvalue', hafter', -⟩ := readExact_of_le hfull
          rcases hread : readExact len r₁ with ⟨e | body, r₂⟩
          · simp [hread] at hvalue'
          · simp only [hread] at hafter'
            refine .inr ⟨?_, hlimit, ?_⟩
            · rw [hafter, List.length_drop] at hfull
              omega
            · have hrest : (readFrame r).2 = r₂ := by
                simp only [readFrame, hheader, len, if_neg hnot, hread]
                split <;> rfl
              rw [hrest, hafter', hafter, List.drop_drop]

theorem readFrame_of_prefix {frame frame' : ControlFrame} {r : ByteSource}
    {more : List UInt8} (hfits : FrameFits frame)
    (hcontent : r.content <+: frameBytes frame ++ more)
    (hread : (readFrame r).1 = .ok frame') : frame' = frame := by
  have hwhole : frameBytes frame <+: r.content := by
    rcases readFrame_cases r with ⟨_, _, e, herror⟩ | ⟨_, _, _, herror⟩ |
      ⟨_, _, _, e, herror⟩ | ⟨hlen, _, _⟩
    · simp [herror] at hread
    · simp [herror] at hread
    · simp [herror] at hread
    · have hlimit : (serialize frame).length ≤ 65536 := hfits
      have htake : r.content.take 4 = bigEndian 4 (serialize frame).length := by
        have hhead : bigEndian 4 (serialize frame).length <+: frameBytes frame ++ more :=
          (List.prefix_append _ _).trans (List.prefix_append _ _)
        have hhead' : bigEndian 4 (serialize frame).length <+: r.content :=
          List.prefix_of_prefix_length_le hhead hcontent (by simp; omega)
        simpa using (List.prefix_iff_eq_take.mp hhead').symm
      rw [htake, bigEndianValue_bigEndian _ _ (by norm_num; omega)] at hlen
      exact List.prefix_of_prefix_length_le (List.prefix_append _ _) hcontent (by simpa using hlen)
  obtain ⟨rest, hrest⟩ := hwhole
  have hframe := (readFrame_frameBytes hfits hrest.symm).1
  rw [hread] at hframe
  exact Except.ok.inj hframe

theorem writeFrame_dichotomy (written : List UInt8) (frame : ControlFrame) :
    (maxFrameBytes < (serialize frame).length ∧
      ∃ size, writeFrame (Sink.reliable written) frame =
        (.error (.tooLarge size), Sink.reliable written)) ∨
    ((serialize frame).length ≤ maxFrameBytes ∧
      writeFrame (Sink.reliable written) frame =
        (.ok (), Sink.reliable (written ++ frameBytes frame))) := by
  by_cases hfits : FrameFits frame
  · exact .inr ⟨hfits, writeFrame_reliable written hfits⟩
  · exact .inl ⟨Nat.lt_of_not_le hfits, writeFrame_tooLarge _ hfits⟩

/-- The frame codec over whole streams: writes are all or nothing at the size
limit, successful writes are read back in order with any suffix left unread,
and a read never goes past the frame announced by its length prefix. -/
theorem frame_stream_codec :
    (∀ (written : List UInt8) (frame : ControlFrame),
      ((∃ size, writeFrame (Sink.reliable written) frame =
          (.error (.tooLarge size), Sink.reliable written)) ↔
        maxFrameBytes < (serialize frame).length) ∧
      ((¬ ∃ size, writeFrame (Sink.reliable written) frame =
          (.error (.tooLarge size), Sink.reliable written)) →
        ∃ appended, appended.length = 4 + (serialize frame).length ∧
          writeFrame (Sink.reliable written) frame =
            (.ok (), Sink.reliable (written ++ appended)))) ∧
    (∀ (frames : List ControlFrame) (rest : List UInt8) (w : ByteSink) (r : ByteSource),
      writeFrames (Sink.reliable []) frames = (.ok (), w) →
      r.content = w.written ++ rest →
      (readFrames frames.length r).1 = .ok frames ∧
        (readFrames frames.length r).2.content = rest) ∧
    (∀ r : ByteSource,
      (4 ≤ r.content.length → maxFrameBytes < bigEndianValue (r.content.take 4) →
        (readFrame r).1 = .error (.tooLarge (bigEndianValue (r.content.take 4))) ∧
          (readFrame r).2.content = r.content.drop 4) ∧
      (∀ frame, (readFrame r).1 = .ok frame →
        4 + bigEndianValue (r.content.take 4) ≤ r.content.length ∧
          (readFrame r).2.content = r.content.drop (4 + bigEndianValue (r.content.take 4))) ∧
      (∃ consumed, r.content = consumed ++ (readFrame r).2.content ∧
        consumed.length ≤ 4 + bigEndianValue (r.content.take 4))) := by
  refine ⟨?_, ?_, ?_⟩
  · intro written frame
    rcases writeFrame_dichotomy written frame with ⟨hlarge, size, hwrite⟩ | ⟨hfits, hwrite⟩
    · refine ⟨⟨fun _ => hlarge, fun _ => ⟨size, hwrite⟩⟩, ?_⟩
      intro hnone
      exact absurd ⟨size, hwrite⟩ hnone
    · refine ⟨⟨?_, fun hlarge => absurd hlarge (Nat.not_lt.mpr hfits)⟩, ?_⟩
      · rintro ⟨size, hrefused⟩
        simp [hwrite] at hrefused
      · intro _
        exact ⟨frameBytes frame, length_frameBytes frame, hwrite⟩
  · intro frames rest w r hwrites hcontent
    obtain ⟨hfits, hwritten⟩ := writeFrames_reliable hwrites
    exact readFrames_frameBytes hfits (by simpa [hwritten] using hcontent)
  · intro r
    rcases readFrame_cases r with ⟨hshort, hrest, e, he⟩ | ⟨hlen, hlarge, hrest, he⟩ |
      ⟨hcut, hlimit, hrest, e, he⟩ | ⟨hfull, hlimit, hrest⟩
    · refine ⟨by omega, by simp [he], r.content, by simp [hrest], by omega⟩
    · refine ⟨fun _ _ => ⟨he, hrest⟩, by simp [he], r.content.take 4, by simp [hrest], ?_⟩
      simp only [List.length_take]
      omega
    · refine ⟨by omega, by simp [he], r.content, by simp [hrest], by omega⟩
    · refine ⟨by omega, fun _ _ => ⟨hfull, hrest⟩,
        r.content.take (4 + bigEndianValue (r.content.take 4)), by simp [hrest], ?_⟩
      simp only [List.length_take]
      omega

example : (serialize (.newConn "1.2.3.4:50000")).length = 25 := by decide

end Seamless.Common
