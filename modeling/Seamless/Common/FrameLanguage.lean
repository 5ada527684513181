import Seamless.Common.FrameCodec

/-!
What the two ends accept as a frame. The decoder takes nothing but encodings, and the
encoding of one frame is never the beginning of that of another, so that a stream has one
reading: whatever was not written as a frame is not read as one.
-/

namespace Seamless.Common

open Seamless.Library.ByteCodec
open Seamless.Library.ByteStream
open Bincode

namespace Bincode

theorem strict_decodeString : Strict decodeString encodeString := by
  intro input s rest h
  obtain ⟨length, mid, hlength, hmore⟩ := bind_eq_ok.mp h
  obtain ⟨-, rfl⟩ := unsigned_eq_ok.mp hlength
  obtain ⟨bytes, mid', hbytes, hlast⟩ := bind_eq_ok.mp hmore
  obtain ⟨rfl, rfl⟩ := takeBytes_eq_ok.mp hbytes
  cases hutf8 : fromUtf8 bytes with
  | some s' =>
      rw [hutf8] at hlast
      obtain ⟨rfl, rfl⟩ := pure_eq_ok.mp hlast
      rw [encodeString, utf8_of_fromUtf8 hutf8, List.append_assoc]
  | none =>
      rw [hutf8] at hlast
      exact absurd hlast throw_ne_ok

theorem strict_decodeOption {α : Type} {decode : Read α} {encode : α → List UInt8}
    (hdecode : Strict decode encode) : Strict (decodeOption decode) (encodeOption encode) := by
  intro input value rest h
  obtain ⟨tag, mid, htag, hmore⟩ := bind_eq_ok.mp h
  obtain ⟨-, rfl⟩ := unsigned_eq_ok.mp htag
  split at hmore
  · obtain ⟨rfl, rfl⟩ := pure_eq_ok.mp hmore
    rfl
  · obtain ⟨a, ha, rfl⟩ := map_eq_ok.mp hmore
    rw [hdecode _ _ _ ha, encodeOption, List.append_assoc]
    rfl
  · exact absurd hmore throw_ne_ok

theorem strict_decodeTunnelKind : Strict decodeTunnelKind encodeTunnelKind := by
  intro input kind rest h
  obtain ⟨index, mid, hindex, hmore⟩ := bind_eq_ok.mp h
  obtain ⟨-, rfl⟩ := unsigned_eq_ok.mp hindex
  split at hmore
  · obtain ⟨subdomain, hsubdomain, rfl⟩ := map_eq_ok.mp hmore
    rw [strict_decodeOption strict_decodeString _ _ _ hsubdomain, encodeTunnelKind,
      List.append_assoc]
  · obtain ⟨port, hport, rfl⟩ := map_eq_ok.mp hmore
    obtain ⟨hlt, rfl⟩ := unsigned_eq_ok.mp hport
    rw [encodeTunnelKind, UInt16.toNat_ofNat_of_lt' hlt, List.append_assoc]
  · exact absurd hmore throw_ne_ok

theorem strict_decodeControlFrame : Strict decodeControlFrame serialize := by
  intro input frame rest h
  obtain ⟨index, mid, hindex, hmore⟩ := bind_eq_ok.mp h
  obtain ⟨-, rfl⟩ := unsigned_eq_ok.mp hindex
  split at hmore
  · obtain ⟨version, mid, hversion, hfields⟩ := bind_eq_ok.mp hmore
    obtain ⟨hlt, rfl⟩ := unsigned_eq_ok.mp hversion
    obtain ⟨token, mid, htoken, hfields⟩ := bind_eq_ok.mp hfields
    obtain ⟨kind, mid', hkind, hfields⟩ := bind_eq_ok.mp hfields
    obtain ⟨rfl, rfl⟩ := pure_eq_ok.mp hfields
    rw [strict_decodeOption strict_decodeString _ _ _ htoken,
      strict_decodeTunnelKind _ _ _ hkind, serialize, UInt8.toNat_ofNat_of_lt' hlt]
    simp
  · obtain ⟨publicUrl, hurl, rfl⟩ := map_eq_ok.mp hmore
    rw [strict_decodeString _ _ _ hurl, serialize, List.append_assoc]
  · obtain ⟨peerAddr, hpeer, rfl⟩ := map_eq_ok.mp hmore
    rw [strict_decodeString _ _ _ hpeer, serialize, List.append_assoc]
  · obtain ⟨rfl, rfl⟩ := pure_eq_ok.mp hmore
    rfl
  · obtain ⟨code, mid, hcode, hfields⟩ := bind_eq_ok.mp hmore
    obtain ⟨hlt, rfl⟩ := unsigned_eq_ok.mp hcode
    obtain ⟨message, mid', hmessage, hfields⟩ := bind_eq_ok.mp hfields
    obtain ⟨rfl, rfl⟩ := pure_eq_ok.mp hfields
    rw [strict_decodeString _ _ _ hmessage, serialize, UInt16.toNat_ofNat_of_lt' hlt]
    simp
  · exact absurd hmore throw_ne_ok

theorem deserialize_eq_ok_iff {body : List UInt8} {frame : ControlFrame}
    (hlength : body.length < 256 ^ 8) :
    deserialize body = .ok frame ↔ serialize frame <+: body := by
  constructor
  · intro h
    unfold deserialize at h
    split at h
    · rename_i frame' rest hdecode
      cases h
      exact ⟨rest, (strict_decodeControlFrame _ _ _ hdecode).symm⟩
    · cases h
  · rintro ⟨rest, rfl⟩
    have hfits : (serialize frame).length < 256 ^ 8 := by
      rw [List.length_append] at hlength
      omega
    rw [deserialize, reads_decodeControlFrame hfits rest]

end Bincode

theorem readFrame_body {r : ByteSource} {body rest : List UInt8}
    (hcontent : r.content = bigEndian 4 body.length ++ (body ++ rest))
    (hlimit : body.length ≤ maxFrameBytes) :
    (readFrame r).1 = (deserialize body).mapError .decode ∧ (readFrame r).2.content = rest := by
  have hlt : body.length < 256 ^ 4 := lt_of_le_of_lt hlimit (by decide)
  obtain ⟨hvalue, hafter, -⟩ := readExact_of_le (n := 4) (s := r) (by simp [hcontent])
  rcases hheader : readExact 4 r with ⟨e | lenBuf, r₁⟩
  · simp [hheader] at hvalue
  · simp only [hheader, hcontent, Except.ok.injEq] at hvalue hafter
    have htake : lenBuf = bigEndian 4 body.length := by simpa using hvalue
    have hdrop : r₁.content = body ++ rest := by simpa using hafter
    obtain ⟨hvalue', hafter', -⟩ := readExact_of_le (n := body.length) (s := r₁)
      (by simp [hdrop])
    rcases hread : readExact body.length r₁ with ⟨e | bytes, r₂⟩
    · simp [hread] at hvalue'
    · simp only [hread, hdrop, Except.ok.injEq, List.take_left', List.drop_left'] at hvalue' hafter'
      rw [hvalue'] at hread
      have hlength : bigEndianValue lenBuf = body.length := by
        rw [htake, bigEndianValue_bigEndian _ _ hlt]
      simp only [readFrame, hheader, hlength, if_neg (Nat.not_lt.mpr hlimit), hread]
      cases hbody : deserialize body with
      | ok frame => exact ⟨rfl, hafter'⟩
      | error e => exact ⟨rfl, hafter'⟩

/-- How far a stream has to come for its first frame to be read. -/
def Framed (r : ByteSource) (body rest : List UInt8) : Prop :=
  r.content = bigEndian 4 body.length ++ (body ++ rest) ∧ body.length ≤ maxFrameBytes

theorem framed_of_readFrame {r : ByteSource}
    (h : (∃ frame, (readFrame r).1 = .ok frame) ∨ ∃ e, (readFrame r).1 = .error (.decode e)) :
    ∃ body rest, Framed r body rest := by
  rcases Nat.lt_or_ge r.content.length 4 with hshort | hlen
  · obtain ⟨hvalue, -⟩ := readExact_of_lt hshort
    rcases hheader : readExact 4 r with ⟨e | lenBuf, r₁⟩
    · simp only [readFrame, hheader] at h
      split at h <;> simp at h
    · simp [hheader] at hvalue
  · obtain ⟨hvalue, hafter, -⟩ := readExact_of_le hlen
    rcases hheader : readExact 4 r with ⟨e | lenBuf, r₁⟩
    · simp [hheader] at hvalue
    · simp only [hheader, Except.ok.injEq] at hvalue hafter
      by_cases hlarge : maxFrameBytes < bigEndianValue lenBuf
      · simp [readFrame, hheader, hlarge] at h
      · rcases Nat.lt_or_ge r₁.content.length (bigEndianValue lenBuf) with hcut | hfull
        · obtain ⟨hvalue', -⟩ := readExact_of_lt hcut
          rcases hread : readExact (bigEndianValue lenBuf) r₁ with ⟨e | body, r₂⟩
          · simp [readFrame, hheader, hlarge, hread] at h
          · simp [hread] at hvalue'
        · have hbody : (r₁.content.take (bigEndianValue lenBuf)).length =
              bigEndianValue lenBuf := by
            rw [List.length_take]
            omega
          have hlength : lenBuf.length = 4 := by
            rw [hvalue, List.length_take]
            omega
          refine ⟨r₁.content.take (bigEndianValue lenBuf),
            r₁.content.drop (bigEndianValue lenBuf), ?_, ?_⟩
          · rw [hbody, ← hlength, bigEndian_bigEndianValue, List.take_append_drop, hafter, hvalue,
              List.take_append_drop]
          · rw [hbody]
            exact Nat.le_of_not_lt hlarge

namespace Framed

variable {r : ByteSource} {body rest : List UInt8}

theorem readFrame_eq (h : Framed r body rest) :
    (readFrame r).1 = (deserialize body).mapError .decode :=
  (readFrame_body h.1 h.2).1

theorem content_after (h : Framed r body rest) : (readFrame r).2.content = rest :=
  (readFrame_body h.1 h.2).2

theorem length_lt (h : Framed r body rest) : body.length < 256 ^ 8 :=
  lt_of_le_of_lt h.2 (by decide)

theorem read_iff (h : Framed r body rest) (frame : ControlFrame) :
    (readFrame r).1 = .ok frame ↔ serialize frame <+: body := by
  rw [h.readFrame_eq, ← deserialize_eq_ok_iff h.length_lt]
  cases deserialize body with
  | ok frame' => simp [Except.mapError]
  | error e => simp [Except.mapError]

theorem undecodable_iff (h : Framed r body rest) :
    (∃ e, (readFrame r).1 = .error (.decode e)) ↔ ∀ frame, ¬ serialize frame <+: body := by
  simp only [h.readFrame_eq, ← deserialize_eq_ok_iff h.length_lt]
  cases deserialize body with
  | ok frame' => simp [Except.mapError]
  | error e => simp [Except.mapError]

end Framed

theorem readFrame_eq_ok_iff (r : ByteSource) (frame : ControlFrame) :
    (readFrame r).1 = .ok frame ↔
      ∃ body rest, Framed r body rest ∧ serialize frame <+: body := by
  constructor
  · intro h
    obtain ⟨body, rest, hframed⟩ := framed_of_readFrame (.inl ⟨frame, h⟩)
    exact ⟨body, rest, hframed, (hframed.read_iff frame).mp h⟩
  · rintro ⟨body, rest, hframed, hbegins⟩
    exact (hframed.read_iff frame).mpr hbegins

theorem readFrame_undecodable_iff (r : ByteSource) :
    (∃ e, (readFrame r).1 = .error (.decode e)) ↔
      ∃ body rest, Framed r body rest ∧ ∀ frame, ¬ serialize frame <+: body := by
  constructor
  · intro h
    obtain ⟨body, rest, hframed⟩ := framed_of_readFrame (.inr h)
    exact ⟨body, rest, hframed, hframed.undecodable_iff.mp h⟩
  · rintro ⟨body, rest, hframed, hnone⟩
    exact hframed.undecodable_iff.mpr hnone

/-- No encoding is the beginning of another one. -/
theorem serialize_prefixFree {frame frame' : ControlFrame} (hfits : FrameFits frame')
    (hbegins : serialize frame <+: serialize frame') : frame = frame' := by
  have hlength : (serialize frame').length < 256 ^ 8 := lt_of_le_of_lt hfits (by decide)
  have hread := (deserialize_eq_ok_iff hlength).mpr hbegins
  rw [deserialize_serialize hlength] at hread
  exact (Except.ok.inj hread).symm

/-- The streams on which a frame is read, and those on which decoding fails: however a stream
arrives, it is its first body that decides, and that is a frame only if it begins with the
encoding of one. No encoding is the beginning of another, so that this frame is the only one. -/
theorem frame_language :
    (∀ (r : ByteSource) (frame : ControlFrame), (readFrame r).1 = .ok frame ↔
      ∃ body rest, Framed r body rest ∧ serialize frame <+: body) ∧
    (∀ r : ByteSource, (∃ e, (readFrame r).1 = .error (.decode e)) ↔
      ∃ body rest, Framed r body rest ∧ ∀ frame, ¬ serialize frame <+: body) ∧
    (∀ (r : ByteSource) (body rest : List UInt8), Framed r body rest →
      (readFrame r).2.content = rest) ∧
    ∀ frame frame' : ControlFrame, FrameFits frame' → serialize frame <+: serialize frame' →
      frame = frame' := by
  refine ⟨readFrame_eq_ok_iff, readFrame_undecodable_iff, ?_, ?_⟩
  · intro r body rest hframed
    exact hframed.content_after
  · intro frame frame' hfits hbegins
    exact serialize_prefixFree hfits hbegins

end Seamless.Common
