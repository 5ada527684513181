import Seamless.Library.ByteCodec

/-!
The frames of the wire protocol and their `bincode` encoding: fixed-width
little-endian integers, a `u32` variant index, a one-byte option tag, and
strings as a `u64` byte length followed by UTF-8.
-/

namespace Seamless.Common

open Seamless.Library.ByteCodec

def protocolVersion : UInt8 := 1

def maxFrameBytes : Nat := 64 * 1024

inductive TunnelKind where
  /-- HTTP(S) routed on the relay by Host header matching `subdomain`. -/
  | http (subdomain : Option String)
  /-- Raw TCP on a dedicated relay port (0 = relay picks one). -/
  | tcp (port : UInt16)
  deriving Repr, DecidableEq

inductive ControlFrame where
  | register (version : UInt8) (token : Option String) (kind : TunnelKind)
  | registered (publicUrl : String)
  | newConn (peerAddr : String)
  | ping
  | error (code : UInt16) (message : String)
  deriving Repr, DecidableEq

/-- The failures of `bincode::deserialize` on these types. -/
inductive BincodeError where
  | unexpectedEof
  | invalidUtf8Encoding
  | invalidTagEncoding (tag : Nat)
  | invalidVariant (index : Nat)
  deriving Repr, DecidableEq

def utf8 (s : String) : List UInt8 := s.toByteArray.data.toList

def fromUtf8 (bytes : List UInt8) : Option String :=
  String.fromUTF8? ⟨bytes.toArray⟩

@[simp] theorem fromUtf8_utf8 (s : String) : fromUtf8 (utf8 s) = some s := by
  simp [fromUtf8, utf8, String.fromUTF8?, s.isValidUTF8, String.fromUTF8]

theorem utf8_of_fromUtf8 {bytes : List UInt8} {s : String}
    (h : fromUtf8 bytes = some s) : utf8 s = bytes := by
  unfold fromUtf8 String.fromUTF8? at h
  split at h
  · cases h
    simp [utf8, String.fromUTF8]
  · cases h

theorem utf8_eq_flatMap (s : String) : utf8 s = s.toList.flatMap String.utf8EncodeChar := by
  rw [utf8, ← String.utf8Encode_toList, List.utf8Encode]
  simp

theorem utf8_append (s t : String) : utf8 (s ++ t) = utf8 s ++ utf8 t := by
  simp [utf8_eq_flatMap]

theorem encoded_of_ascii {l : List Char} (h : ∀ c ∈ l, c.toNat < 128) :
    l.flatMap String.utf8EncodeChar = l.map fun c => UInt8.ofNat c.toNat := by
  induction l with
  | nil => rfl
  | cons c l ih =>
      rw [List.forall_mem_cons] at h
      obtain ⟨hfirst, hrest⟩ := h
      have hone : c.utf8Size = 1 := by
        rw [Char.utf8Size_eq_one_iff, UInt32.le_iff_toNat_le]
        exact Nat.le_of_lt_succ hfirst
      rw [List.flatMap_cons, ih hrest, String.utf8EncodeChar_eq_singleton hone]
      rfl

theorem fromUtf8_of_ascii {bytes : List UInt8} (h : ∀ b ∈ bytes, b.toNat < 128) :
    fromUtf8 bytes = some (String.ofList (bytes.map fun b => Char.ofNat b.toNat)) := by
  have htable : ∀ n ∈ List.range 128, (Char.ofNat n).toNat = n := by decide +kernel
  have hchar : ∀ b ∈ bytes, (Char.ofNat b.toNat).toNat = b.toNat :=
    fun b hb => htable b.toNat (List.mem_range.mpr (h b hb))
  have hutf8 : utf8 (String.ofList (bytes.map fun b => Char.ofNat b.toNat)) = bytes := by
    rw [utf8_eq_flatMap, String.toList_ofList, encoded_of_ascii, List.map_map]
    · nth_rewrite 2 [← List.map_id bytes]
      apply List.map_congr_left
      intro b hb
      rw [Function.comp_apply, hchar b hb, UInt8.ofNat_toNat]
      rfl
    · intro c hc
      obtain ⟨b, hb, rfl⟩ := List.mem_map.mp hc
      rw [hchar b hb]
      exact h b hb
  have hdecoded := fromUtf8_utf8 (String.ofList (bytes.map fun b => Char.ofNat b.toNat))
  rw [hutf8] at hdecoded
  exact hdecoded

theorem utf8EncodeChar_split {text : List Char} {a b : List UInt8}
    (h : text.flatMap String.utf8EncodeChar = a ++ b)
    (hb : ∀ x ∈ b.head?, x.IsUTF8FirstByte) :
    ∃ t₁ t₂, text = t₁ ++ t₂ ∧ t₁.flatMap String.utf8EncodeChar = a ∧
      t₂.flatMap String.utf8EncodeChar = b := by
  induction text generalizing a with
  | nil =>
      obtain ⟨rfl, rfl⟩ := List.append_eq_nil_iff.mp h.symm
      exact ⟨[], [], rfl, rfl, rfl⟩
  | cons c text ih =>
      rw [List.flatMap_cons] at h
      rcases List.append_eq_append_iff.mp h with ⟨a', rfl, hrest⟩ | ⟨c', hc, hb'⟩
      · obtain ⟨t₁, t₂, rfl, rfl, rfl⟩ := ih hrest
        exact ⟨c :: t₁, t₂, rfl, by simp, rfl⟩
      · cases c' with
        | nil =>
            obtain ⟨t₁, t₂, rfl, hnil, hrest⟩ := ih (a := []) (by simpa using hb'.symm)
            exact ⟨c :: t₁, t₂, rfl, by simpa [hnil] using hc, hrest⟩
        | cons x c' =>
            have hlen : a.length < (String.utf8EncodeChar c).length := by simp [hc]
            have hfirst : (String.utf8EncodeChar c)[a.length].IsUTF8FirstByte := by
              have hx : (String.utf8EncodeChar c)[a.length] = x := by simp [hc]
              rw [hx]
              exact hb x (by simp [hb'])
            have hzero := UInt8.isUTF8FirstByte_getElem_utf8EncodeChar.mp hfirst
            obtain rfl := List.eq_nil_of_length_eq_zero hzero
            refine ⟨[], c :: text, rfl, rfl, ?_⟩
            simpa using h

theorem utf8_split {s : String} {a b : List UInt8} (h : utf8 s = a ++ b)
    (hb : ∀ x ∈ b.head?, x.IsUTF8FirstByte) :
    ∃ s₁ s₂, s = s₁ ++ s₂ ∧ utf8 s₁ = a ∧ utf8 s₂ = b := by
  rw [utf8_eq_flatMap] at h
  obtain ⟨t₁, t₂, hs, ha, hb⟩ := utf8EncodeChar_split h hb
  refine ⟨String.ofList t₁, String.ofList t₂, ?_, ?_, ?_⟩
  · rw [← String.ofList_append, ← hs, String.ofList_toList]
  · rw [utf8_eq_flatMap, String.toList_ofList, ha]
  · rw [utf8_eq_flatMap, String.toList_ofList, hb]

theorem isUTF8FirstByte_head (s : String) : ∀ x ∈ (utf8 s).head?, x.IsUTF8FirstByte := by
  intro x hx
  rw [utf8_eq_flatMap] at hx
  cases hchars : s.toList with
  | nil => simp [hchars] at hx
  | cons c rest =>
      have hpos : 0 < (String.utf8EncodeChar c).length := by
        rw [String.length_utf8EncodeChar]
        exact c.utf8Size_pos
      rw [hchars, List.flatMap_cons, List.head?_append_of_ne_nil _ (List.ne_nil_of_length_pos hpos),
        List.head?_eq_getElem?, List.getElem?_eq_getElem hpos] at hx
      obtain rfl := Option.some.inj hx
      exact UInt8.isUTF8FirstByte_getElem_utf8EncodeChar.mpr rfl

theorem utf8_injective {s t : String} (h : utf8 s = utf8 t) : s = t := by
  have hs := fromUtf8_utf8 s
  rw [h, fromUtf8_utf8] at hs
  exact (Option.some.inj hs).symm

theorem toList_prefix_of_utf8 {s t : String} {more : List UInt8} (h : utf8 t = utf8 s ++ more) :
    s.toList <+: t.toList := by
  refine List.isPrefix_of_utf8Encode_append_eq_utf8Encode ⟨more.toArray⟩ ?_
  rw [String.utf8Encode_toList, String.utf8Encode_toList]
  refine ByteArray.ext (Array.ext' ?_)
  simpa [utf8] using h.symm

namespace Bincode

def encodeString (s : String) : List UInt8 :=
  littleEndian 8 (utf8 s).length ++ utf8 s

def encodeOption {α : Type} (encode : α → List UInt8) : Option α → List UInt8
  | none => [0]
  | some a => [1] ++ encode a

def encodeTunnelKind : TunnelKind → List UInt8
  | .http subdomain => littleEndian 4 0 ++ encodeOption encodeString subdomain
  | .tcp port => littleEndian 4 1 ++ littleEndian 2 port.toNat

def serialize : ControlFrame → List UInt8
  | .register version token kind =>
      littleEndian 4 0 ++ (littleEndian 1 version.toNat ++
        (encodeOption encodeString token ++ encodeTunnelKind kind))
  | .registered publicUrl => littleEndian 4 1 ++ encodeString publicUrl
  | .newConn peerAddr => littleEndian 4 2 ++ encodeString peerAddr
  | .ping => littleEndian 4 3
  | .error code message =>
      littleEndian 4 4 ++ (littleEndian 2 code.toNat ++ encodeString message)

abbrev Read := Decoder BincodeError

def decodeString : Read String := do
  let length ← unsigned 8 .unexpectedEof
  let bytes ← takeBytes length .unexpectedEof
  match fromUtf8 bytes with
  | some s => pure s
  | none => throw .invalidUtf8Encoding

def decodeOption {α : Type} (decode : Read α) : Read (Option α) := do
  match ← unsigned 1 .unexpectedEof with
  | 0 => pure none
  | 1 => some <$> decode
  | tag => throw (.invalidTagEncoding tag)

def decodeTunnelKind : Read TunnelKind := do
  match ← unsigned 4 .unexpectedEof with
  | 0 => TunnelKind.http <$> decodeOption decodeString
  | 1 => (fun port => TunnelKind.tcp (UInt16.ofNat port)) <$> unsigned 2 .unexpectedEof
  | index => throw (.invalidVariant index)

def decodeControlFrame : Read ControlFrame := do
  match ← unsigned 4 .unexpectedEof with
  | 0 => do
      let version ← unsigned 1 .unexpectedEof
      let token ← decodeOption decodeString
      let kind ← decodeTunnelKind
      pure (.register (UInt8.ofNat version) token kind)
  | 1 => ControlFrame.registered <$> decodeString
  | 2 => ControlFrame.newConn <$> decodeString
  | 3 => pure .ping
  | 4 => do
      let code ← unsigned 2 .unexpectedEof
      let message ← decodeString
      pure (.error (UInt16.ofNat code) message)
  | index => throw (.invalidVariant index)

/-- `bincode::deserialize`: the first value in `body`; trailing bytes are
allowed and ignored. -/
def deserialize (body : List UInt8) : Except BincodeError ControlFrame :=
  match decodeControlFrame body with
  | .ok (frame, _) => .ok frame
  | .error e => .error e

theorem reads_decodeString {s : String} (h : (utf8 s).length < 256 ^ 8) :
    Reads decodeString (encodeString s) s := by
  unfold decodeString encodeString
  apply Reads.bind (reads_unsigned _ h)
  rw [← List.append_nil (utf8 s)]
  refine Reads.bind (a := utf8 s) ?_ ?_
  · simpa using reads_takeBytes (utf8 s) BincodeError.unexpectedEof
  · rw [fromUtf8_utf8]
    exact Reads.pure s

theorem reads_decodeOption {α : Type} {decode : Read α} {encode : α → List UInt8}
    {value : Option α} (h : ∀ a, value = some a → Reads decode (encode a) a) :
    Reads (decodeOption decode) (encodeOption encode value) value := by
  cases value with
  | none =>
      have htag : Reads (unsigned 1 BincodeError.unexpectedEof) (littleEndian 1 0) 0 :=
        reads_unsigned _ (by norm_num)
      exact htag.bind (Reads.pure none)
  | some a =>
      have htag : Reads (unsigned 1 BincodeError.unexpectedEof) (littleEndian 1 1) 1 :=
        reads_unsigned _ (by norm_num)
      exact htag.bind ((h a rfl).map some)

theorem reads_decodeTunnelKind {kind : TunnelKind}
    (h : (encodeTunnelKind kind).length < 256 ^ 8) :
    Reads decodeTunnelKind (encodeTunnelKind kind) kind := by
  cases kind with
  | http subdomain =>
      refine Reads.bind (reads_unsigned _ (by norm_num)) (Reads.map _ ?_)
      refine reads_decodeOption fun s hs => reads_decodeString ?_
      subst hs
      simp only [encodeTunnelKind, encodeOption, encodeString, List.length_append] at h
      omega
  | tcp port =>
      apply Reads.bind (reads_unsigned _ (by norm_num))
      have hport := (reads_unsigned BincodeError.unexpectedEof
        (show port.toNat < 256 ^ 2 from port.toNat_lt)).map
        fun port => TunnelKind.tcp (UInt16.ofNat port)
      simpa using hport

/-- Decoding inverts encoding on every frame whose encoding could be sent at
all, and stops at the last byte of the encoding. -/
theorem reads_decodeControlFrame {frame : ControlFrame}
    (h : (serialize frame).length < 256 ^ 8) :
    Reads decodeControlFrame (serialize frame) frame := by
  cases frame with
  | register version token kind =>
      simp only [serialize, List.length_append] at h
      apply Reads.bind (reads_unsigned _ (by norm_num))
      apply Reads.bind (reads_unsigned _ (show version.toNat < 256 ^ 1 from version.toNat_lt))
      refine Reads.bind (a := token) (reads_decodeOption fun s hs => reads_decodeString ?_) ?_
      · subst hs
        simp only [encodeOption, encodeString, List.length_append] at h
        omega
      rw [← List.append_nil (encodeTunnelKind kind)]
      refine Reads.bind (a := kind) (reads_decodeTunnelKind (by omega)) ?_
      simpa using Reads.pure (ControlFrame.register version token kind)
  | registered publicUrl =>
      simp only [serialize, encodeString, List.length_append] at h
      apply Reads.bind (reads_unsigned _ (by norm_num))
      exact (reads_decodeString (by omega)).map ControlFrame.registered
  | newConn peerAddr =>
      simp only [serialize, encodeString, List.length_append] at h
      apply Reads.bind (reads_unsigned _ (by norm_num))
      exact (reads_decodeString (by omega)).map ControlFrame.newConn
  | ping =>
      exact Reads.bind (reads_unsigned _ (by norm_num)) (Reads.pure ControlFrame.ping)
  | error code message =>
      simp only [serialize, encodeString, List.length_append] at h
      apply Reads.bind (reads_unsigned _ (by norm_num))
      apply Reads.bind (reads_unsigned _ (show code.toNat < 256 ^ 2 from code.toNat_lt))
      rw [← List.append_nil (encodeString message)]
      refine Reads.bind (a := message) (reads_decodeString (by omega)) ?_
      simpa using Reads.pure (ControlFrame.error code message)

theorem deserialize_serialize {frame : ControlFrame}
    (h : (serialize frame).length < 256 ^ 8) :
    deserialize (serialize frame) = .ok frame := by
  simp [deserialize, (reads_decodeControlFrame h).run]

end Bincode

end Seamless.Common
