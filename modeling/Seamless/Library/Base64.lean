import Mathlib.Data.List.Basic
import Mathlib.Data.UInt

/-!
Base64 with the standard alphabet and with padding: three bytes become four digits
of six bits.
-/

namespace Seamless.Library.Base64

def alphabet : List Char :=
  "ABCDEFGHIJKLMNOPQRSTUVWXYZabcdefghijklmnopqrstuvwxyz0123456789+/".toList

def digit (n : Nat) : Char := alphabet.getD n '='

def digitValue (c : Char) : Option Nat := alphabet.idxOf? c

def encode : List UInt8 → List Char
  | [] => []
  | [a] => [digit (a.toNat / 4), digit (a.toNat % 4 * 16), '=', '=']
  | [a, b] =>
      [digit (a.toNat / 4), digit (a.toNat % 4 * 16 + b.toNat / 16),
        digit (b.toNat % 16 * 4), '=']
  | a :: b :: c :: rest =>
      digit (a.toNat / 4) :: digit (a.toNat % 4 * 16 + b.toNat / 16) ::
        digit (b.toNat % 16 * 4 + c.toNat / 64) :: digit (c.toNat % 64) :: encode rest

/-- The bits that a padded group leaves over have to be zero. -/
def decode : List Char → Option (List UInt8)
  | [] => some []
  | w :: x :: y :: z :: rest => do
      let w ← digitValue w
      let x ← digitValue x
      if z = '=' then
        if rest ≠ [] then none
        else if y = '=' then
          if x % 16 = 0 then some [.ofNat (w * 4 + x / 16)] else none
        else
          let y ← digitValue y
          if y % 4 = 0 then some [.ofNat (w * 4 + x / 16), .ofNat (x % 16 * 16 + y / 4)] else none
      else
        let y ← digitValue y
        let z ← digitValue z
        let more ← decode rest
        some (.ofNat (w * 4 + x / 16) :: .ofNat (x % 16 * 16 + y / 4) ::
          .ofNat (y % 4 * 64 + z) :: more)
  | _ => none

theorem digitValue_digit {n : Nat} (h : n < 64) : digitValue (digit n) = some n := by
  have htable : ∀ n ∈ List.range 64, digitValue (digit n) = some n := by decide +kernel
  exact htable n (List.mem_range.mpr h)

theorem digit_ne_pad {n : Nat} (h : n < 64) : digit n ≠ '=' := by
  intro hpad
  have hvalue := digitValue_digit h
  rw [hpad, show digitValue '=' = none by decide] at hvalue
  exact absurd hvalue (by simp)

theorem digit_mem (n : Nat) : digit n ∈ '=' :: alphabet := by
  rw [digit, List.getD_eq_getElem?_getD]
  cases hdigit : alphabet[n]? with
  | none => exact List.mem_cons_self
  | some c => exact List.mem_cons_of_mem _ (List.mem_of_getElem? hdigit)

theorem mem_encode {bytes : List UInt8} {c : Char} (h : c ∈ encode bytes) :
    c ∈ '=' :: alphabet := by
  have hpad : '=' ∈ '=' :: alphabet := List.mem_cons_self
  induction bytes using encode.induct with
  | case1 => simp [encode] at h
  | case2 a =>
      simp only [encode, List.mem_cons, List.not_mem_nil, or_false] at h
      rcases h with rfl | rfl | rfl | rfl
      · exact digit_mem _
      · exact digit_mem _
      · exact hpad
      · exact hpad
  | case3 a b =>
      simp only [encode, List.mem_cons, List.not_mem_nil, or_false] at h
      rcases h with rfl | rfl | rfl | rfl
      · exact digit_mem _
      · exact digit_mem _
      · exact digit_mem _
      · exact hpad
  | case4 a b c rest ih =>
      simp only [encode, List.mem_cons] at h
      rcases h with rfl | rfl | rfl | rfl | h
      · exact digit_mem _
      · exact digit_mem _
      · exact digit_mem _
      · exact digit_mem _
      · exact ih h

theorem encode_ne_nil {bytes : List UInt8} (h : bytes ≠ []) : encode bytes ≠ [] := by
  induction bytes using encode.induct with
  | case1 => exact absurd rfl h
  | case2 a => simp [encode]
  | case3 a b => simp [encode]
  | case4 a b c rest ih => simp [encode]

theorem ofNat_bits {a : UInt8} {n : Nat} (h : n = a.toNat) : UInt8.ofNat n = a := by
  rw [h, UInt8.ofNat_toNat]

theorem decode_encode (bytes : List UInt8) : decode (encode bytes) = some bytes := by
  induction bytes using encode.induct with
  | case1 => rfl
  | case2 a =>
      have ha := a.toNat_lt
      simp only [encode, decode, digitValue_digit (show a.toNat / 4 < 64 by omega),
        digitValue_digit (show a.toNat % 4 * 16 < 64 by omega)]
      simp only [Option.bind_eq_bind, Option.bind_some, if_true, ne_eq, not_true, if_false]
      rw [if_pos (by omega), ofNat_bits (a := a) (by omega)]
  | case3 a b =>
      have ha := a.toNat_lt
      have hb := b.toNat_lt
      have hthird : b.toNat % 16 * 4 < 64 := by omega
      simp only [encode, decode, digitValue_digit (show a.toNat / 4 < 64 by omega),
        digitValue_digit (show a.toNat % 4 * 16 + b.toNat / 16 < 64 by omega),
        digitValue_digit hthird, if_neg (digit_ne_pad hthird)]
      simp only [Option.bind_eq_bind, Option.bind_some, if_true, ne_eq, not_true, if_false]
      rw [if_pos (by omega), ofNat_bits (a := a) (by omega), ofNat_bits (a := b) (by omega)]
  | case4 a b c rest ih =>
      have ha := a.toNat_lt
      have hb := b.toNat_lt
      have hfourth : c.toNat % 64 < 64 := by omega
      have hc := c.toNat_lt
      simp only [encode, decode, digitValue_digit (show a.toNat / 4 < 64 by omega),
        digitValue_digit (show a.toNat % 4 * 16 + b.toNat / 16 < 64 by omega),
        digitValue_digit (show b.toNat % 16 * 4 + c.toNat / 64 < 64 by omega),
        digitValue_digit hfourth, if_neg (digit_ne_pad hfourth), ih]
      simp only [Option.bind_eq_bind, Option.bind_some]
      rw [ofNat_bits (a := a) (by omega), ofNat_bits (a := b) (by omega),
        ofNat_bits (a := c) (by omega)]

end Seamless.Library.Base64
