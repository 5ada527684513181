import Mathlib.Data.UInt
import Mathlib.Tactic.Ring
import Mathlib.Tactic.Linarith

/-!
Decoders that consume a byte string from the front, and the rules by which a
decoder is shown to invert an encoder. `Reads d bytes a` says that `d` reads
`a` off `bytes` and touches nothing behind them; it composes along `bind`, so a
round trip is proved field by field.
-/

namespace Seamless.Library.ByteCodec

variable {ε α β : Type}

/-- A decoder threads the bytes that are still to be read. -/
abbrev Decoder (ε α : Type) := StateT (List UInt8) (Except ε) α

/-- `d` reads `a` off `bytes`, whatever follows them. -/
def Reads (d : Decoder ε α) (bytes : List UInt8) (a : α) : Prop :=
  ∀ rest, d (bytes ++ rest) = .ok (a, rest)

theorem Reads.pure (a : α) : Reads (Pure.pure a : Decoder ε α) [] a := by
  intro rest
  rfl

theorem Reads.bind {d : Decoder ε α} {f : α → Decoder ε β}
    {bytes bytes' : List UInt8} {a : α} {b : β}
    (hd : Reads d bytes a) (hf : Reads (f a) bytes' b) :
    Reads (d >>= f) (bytes ++ bytes') b := by
  intro rest
  have hfirst := hd (bytes' ++ rest)
  change (d (bytes ++ bytes' ++ rest) >>= fun p => f p.1 p.2) = _
  rw [List.append_assoc, hfirst]
  exact hf rest

theorem Reads.map {d : Decoder ε α} {bytes : List UInt8} {a : α} (f : α → β)
    (hd : Reads d bytes a) : Reads (f <$> d) bytes (f a) := by
  intro rest
  change (do let p ← d (bytes ++ rest); Pure.pure (f p.1, p.2)) = _
  rw [hd rest]
  rfl

theorem Reads.run {d : Decoder ε α} {bytes : List UInt8} {a : α}
    (hd : Reads d bytes a) : d bytes = .ok (a, []) := by
  simpa using hd []

def takeBytes (n : Nat) (short : ε) : Decoder ε (List UInt8) := fun bytes =>
  if n ≤ bytes.length then .ok (bytes.take n, bytes.drop n) else .error short

theorem reads_takeBytes (bytes : List UInt8) (short : ε) :
    Reads (takeBytes bytes.length short) bytes bytes := by
  intro rest
  simp [takeBytes]

def littleEndian : (width : Nat) → Nat → List UInt8
  | 0, _ => []
  | width + 1, n => UInt8.ofNat (n % 256) :: littleEndian width (n / 256)

@[simp] theorem length_littleEndian (width n : Nat) :
    (littleEndian width n).length = width := by
  induction width generalizing n with
  | zero => rfl
  | succ width ih => simp [littleEndian, ih]

def littleEndianValue : List UInt8 → Nat
  | [] => 0
  | b :: bytes => b.toNat + 256 * littleEndianValue bytes

theorem littleEndianValue_littleEndian (width n : Nat) (h : n < 256 ^ width) :
    littleEndianValue (littleEndian width n) = n := by
  induction width generalizing n with
  | zero =>
      have hn : n = 0 := by simpa using h
      subst n
      rfl
  | succ width ih =>
      have hdiv : n / 256 < 256 ^ width := by
        rw [Nat.div_lt_iff_lt_mul (by norm_num), ← pow_succ]
        exact h
      have hlow : (UInt8.ofNat (n % 256)).toNat = n % 256 := by
        simp
      rw [littleEndian, littleEndianValue, ih _ hdiv, hlow]
      omega

def unsigned (width : Nat) (short : ε) : Decoder ε Nat :=
  littleEndianValue <$> takeBytes width short

theorem reads_unsigned {width n : Nat} (short : ε) (h : n < 256 ^ width) :
    Reads (unsigned width short) (littleEndian width n) n := by
  have htake := reads_takeBytes (littleEndian width n) short
  rw [length_littleEndian] at htake
  have hmap := htake.map littleEndianValue
  rwa [littleEndianValue_littleEndian width n h] at hmap

/-- Network byte order: the most significant byte first. -/
def bigEndian (width n : Nat) : List UInt8 := (littleEndian width n).reverse

@[simp] theorem length_bigEndian (width n : Nat) :
    (bigEndian width n).length = width := by
  simp [bigEndian]

def bigEndianValue (bytes : List UInt8) : Nat := littleEndianValue bytes.reverse

theorem bigEndianValue_bigEndian (width n : Nat) (h : n < 256 ^ width) :
    bigEndianValue (bigEndian width n) = n := by
  simp [bigEndianValue, bigEndian, littleEndianValue_littleEndian width n h]

/-! ### What a decoder accepts -/

/-- `d` accepts nothing but encodings, and takes them off exactly. -/
def Strict (d : Decoder ε α) (encode : α → List UInt8) : Prop :=
  ∀ input a rest, d input = .ok (a, rest) → input = encode a ++ rest

theorem bind_eq_ok {d : Decoder ε α} {f : α → Decoder ε β} {input rest : List UInt8} {b : β} :
    (d >>= f) input = .ok (b, rest) ↔
      ∃ a mid, d input = .ok (a, mid) ∧ f a mid = .ok (b, rest) := by
  change (d input >>= fun p => f p.1 p.2) = _ ↔ _
  cases d input with
  | error e => simp [Bind.bind, Except.bind]
  | ok p =>
      constructor
      · intro h
        exact ⟨p.1, p.2, rfl, h⟩
      · rintro ⟨a, mid, hd, hf⟩
        cases hd
        exact hf

theorem pure_eq_ok {input rest : List UInt8} {a b : α} :
    (Pure.pure a : Decoder ε α) input = .ok (b, rest) ↔ a = b ∧ input = rest := by
  change Except.ok (a, input) = _ ↔ _
  simp

theorem map_eq_ok {d : Decoder ε α} {f : α → β} {input rest : List UInt8} {b : β} :
    (f <$> d) input = .ok (b, rest) ↔ ∃ a, d input = .ok (a, rest) ∧ f a = b := by
  rw [map_eq_pure_bind, bind_eq_ok]
  constructor
  · rintro ⟨a, mid, hd, hpure⟩
    obtain ⟨rfl, rfl⟩ := pure_eq_ok.mp hpure
    exact ⟨a, hd, rfl⟩
  · rintro ⟨a, hd, rfl⟩
    exact ⟨a, rest, hd, pure_eq_ok.mpr ⟨rfl, rfl⟩⟩

theorem throw_ne_ok {e : ε} {input rest : List UInt8} {a : α} :
    (throw e : Decoder ε α) input ≠ .ok (a, rest) := by
  intro h
  cases h

theorem takeBytes_eq_ok {n : Nat} {short : ε} {input bytes rest : List UInt8} :
    takeBytes n short input = .ok (bytes, rest) ↔ bytes.length = n ∧ input = bytes ++ rest := by
  unfold takeBytes
  constructor
  · intro h
    split at h
    · cases h
      simp [*]
    · cases h
  · rintro ⟨rfl, rfl⟩
    simp

theorem littleEndianValue_lt (bytes : List UInt8) :
    littleEndianValue bytes < 256 ^ bytes.length := by
  induction bytes with
  | nil => exact Nat.one_pos
  | cons b bytes ih =>
      have hb := b.toNat_lt
      rw [littleEndianValue, List.length_cons, pow_succ]
      omega

theorem littleEndian_littleEndianValue (bytes : List UInt8) :
    littleEndian bytes.length (littleEndianValue bytes) = bytes := by
  induction bytes with
  | nil => rfl
  | cons b bytes ih =>
      have hb : b.toNat < 256 := b.toNat_lt
      have hlow : (b.toNat + 256 * littleEndianValue bytes) % 256 = b.toNat := by omega
      have hhigh : (b.toNat + 256 * littleEndianValue bytes) / 256 = littleEndianValue bytes := by
        omega
      rw [List.length_cons, littleEndianValue, littleEndian, hlow, hhigh, ih, UInt8.ofNat_toNat]

theorem bigEndian_bigEndianValue (bytes : List UInt8) :
    bigEndian bytes.length (bigEndianValue bytes) = bytes := by
  have hreverse := littleEndian_littleEndianValue bytes.reverse
  rw [List.length_reverse] at hreverse
  rw [bigEndian, bigEndianValue, hreverse, List.reverse_reverse]

theorem unsigned_eq_ok {width : Nat} {short : ε} {input rest : List UInt8} {n : Nat} :
    unsigned width short input = .ok (n, rest) ↔
      n < 256 ^ width ∧ input = littleEndian width n ++ rest := by
  rw [unsigned, map_eq_ok]
  constructor
  · rintro ⟨bytes, htake, rfl⟩
    obtain ⟨rfl, rfl⟩ := takeBytes_eq_ok.mp htake
    exact ⟨littleEndianValue_lt bytes, by rw [littleEndian_littleEndianValue]⟩
  · rintro ⟨hn, rfl⟩
    refine ⟨littleEndian width n, takeBytes_eq_ok.mpr ⟨length_littleEndian _ _, rfl⟩, ?_⟩
    exact littleEndianValue_littleEndian width n hn

end Seamless.Library.ByteCodec
