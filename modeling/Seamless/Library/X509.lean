import Seamless.Library.Gregorian
import Mathlib.Data.Nat.Digits.Defs
import Mathlib.Data.UInt

/-!
The DER encoding of an X.509 certificate, as far as the place of its validity period
in it goes: what stands in the other fields is given by their content octets.
-/

namespace Seamless.Library.X509

open Seamless.Library.Gregorian

/-- The length of a content: one octet, or the number of octets that it takes. -/
def lengthOctets (n : Nat) : List UInt8 :=
  if n < 128 then [.ofNat n]
  else
    let octets := ((Nat.digits 256 n).reverse).map UInt8.ofNat
    .ofNat (128 + octets.length) :: octets

/-- An element: its tag, the length of the content, and the content. -/
def element (tag : UInt8) (content : List UInt8) : List UInt8 :=
  tag :: (lengthOctets content.length ++ content)

def sequence (content : List UInt8) : List UInt8 := element 0x30 content

inductive TimeForm where
  | utcTime
  | generalizedTime
  deriving DecidableEq

namespace TimeForm

def tag : TimeForm → UInt8
  | utcTime => 0x17
  | generalizedTime => 0x18

/-- The first year that the form can say, and the number of its years. -/
def firstYear : TimeForm → Int
  | utcTime => 1950
  | generalizedTime => 0

def years : TimeForm → Int
  | utcTime => 100
  | generalizedTime => 10000

/-- The octets of the year and the zone, next to ten for the rest. -/
def textLength : TimeForm → Nat
  | utcTime => 13
  | generalizedTime => 15

end TimeForm

structure Time where
  form : TimeForm
  date : CivilDate
  hour : Nat
  minute : Nat
  second : Nat
  valid : date.Valid
  firstYear_le : form.firstYear ≤ date.year
  year_lt : date.year < form.firstYear + form.years
  hour_lt : hour < 24
  minute_lt : minute < 60
  second_lt : second < 60

def decimal (n : Nat) : UInt8 := .ofNat (48 + n % 10)

def twoDigits (n : Nat) : List UInt8 := [decimal (n / 10), decimal n]

namespace Time

def yearText (time : Time) : List UInt8 :=
  match time.form with
  | .utcTime => twoDigits (time.date.year.toNat % 100)
  | .generalizedTime =>
      twoDigits (time.date.year.toNat / 100) ++ twoDigits (time.date.year.toNat % 100)

/-- `YYMMDDHHMMSSZ` or `YYYYMMDDHHMMSSZ`. -/
def text (time : Time) : List UInt8 :=
  time.yearText ++ twoDigits time.date.month ++ twoDigits time.date.day ++ twoDigits time.hour ++
    twoDigits time.minute ++ twoDigits time.second ++ [0x5a]

def encode (time : Time) : List UInt8 := element time.form.tag time.text

end Time

section Text

theorem toNat_decimal (n : Nat) : (decimal n).toNat = 48 + n % 10 := by
  rw [decimal, UInt8.toNat_ofNat_of_lt' (by simp [UInt8.size]; omega)]

theorem mem_twoDigits {n : Nat} {b : UInt8} (h : b ∈ twoDigits n) :
    48 ≤ b.toNat ∧ b.toNat < 58 := by
  simp only [twoDigits, List.mem_cons, List.not_mem_nil, or_false] at h
  rcases h with rfl | rfl
  · rw [toNat_decimal]
    omega
  · rw [toNat_decimal]
    omega

namespace Time

variable (time : Time)

theorem mem_yearText {b : UInt8} (h : b ∈ time.yearText) : 48 ≤ b.toNat ∧ b.toNat < 58 := by
  unfold yearText at h
  split at h
  · exact mem_twoDigits h
  · rcases List.mem_append.mp h with h | h
    · exact mem_twoDigits h
    · exact mem_twoDigits h

theorem mem_text {b : UInt8} (h : b ∈ time.text) : 48 ≤ b.toNat ∧ b.toNat ≤ 90 := by
  have hdigit : 48 ≤ b.toNat ∧ b.toNat < 58 → 48 ≤ b.toNat ∧ b.toNat ≤ 90 := by omega
  simp only [text, List.mem_append, List.mem_singleton] at h
  rcases h with (((((h | h) | h) | h) | h) | h) | rfl
  · exact hdigit (time.mem_yearText h)
  · exact hdigit (mem_twoDigits h)
  · exact hdigit (mem_twoDigits h)
  · exact hdigit (mem_twoDigits h)
  · exact hdigit (mem_twoDigits h)
  · exact hdigit (mem_twoDigits h)
  · decide

theorem length_text : time.text.length = time.form.textLength := by
  unfold text yearText
  cases time.form with
  | utcTime => rfl
  | generalizedTime => rfl

theorem encode_eq :
    time.encode = time.form.tag :: .ofNat time.form.textLength :: time.text := by
  unfold encode element
  rw [length_text, lengthOctets, if_pos]
  · rfl
  · cases time.form with
    | utcTime => decide
    | generalizedTime => decide

theorem length_encode : time.encode.length = time.form.textLength + 2 := by
  rw [encode_eq, List.length_cons, List.length_cons, length_text]

end Time

end Text

/-- A certificate. The content octets of the fields are arbitrary; `fields` are the encoded
fields of the to-be-signed part from the public key on. -/
structure Certificate where
  version : Option UInt8
  serialNumber : List UInt8
  signature : List UInt8
  issuer : List UInt8
  notBefore : Time
  notAfter : Time
  subject : List UInt8
  fields : List UInt8
  signatureAlgorithm : List UInt8
  signatureValue : List UInt8

namespace Certificate

/-- The version stands in the element `[0]`, unless it is the first. -/
def versionField (c : Certificate) : List UInt8 :=
  match c.version with
  | some v => element 0xa0 (element 0x02 [v])
  | none => []

def validity (c : Certificate) : List UInt8 := c.notBefore.encode ++ c.notAfter.encode

/-- The fields of the to-be-signed part before the validity period. -/
def fieldsBefore (c : Certificate) : List UInt8 :=
  c.versionField ++ element 0x02 c.serialNumber ++ sequence c.signature ++ sequence c.issuer

def fieldsAfter (c : Certificate) : List UInt8 := sequence c.subject ++ c.fields

def tbsCertificate (c : Certificate) : List UInt8 :=
  c.fieldsBefore ++ sequence c.validity ++ c.fieldsAfter

def signaturePart (c : Certificate) : List UInt8 :=
  sequence c.signatureAlgorithm ++ element 0x03 c.signatureValue

def encode (c : Certificate) : List UInt8 :=
  sequence (sequence c.tbsCertificate ++ c.signaturePart)

/-- The octets before `notBefore`. -/
def head (c : Certificate) : List UInt8 :=
  0x30 :: (lengthOctets (sequence c.tbsCertificate ++ c.signaturePart).length ++
    0x30 :: (lengthOctets c.tbsCertificate.length ++ c.fieldsBefore ++
      0x30 :: lengthOctets c.validity.length))

/-- The octets behind `notAfter`. -/
def tail (c : Certificate) : List UInt8 := c.fieldsAfter ++ c.signaturePart

theorem encode_eq (c : Certificate) :
    c.encode = c.head ++ (c.notBefore.encode ++ (c.notAfter.encode ++ c.tail)) := by
  simp [encode, sequence, element, head, tail, tbsCertificate, validity]

/-- The certificate with another end of its validity period. -/
def withNotAfter (c : Certificate) (time : Time) : Certificate := { c with notAfter := time }

theorem head_withNotAfter {c : Certificate} {time : Time} (h : time.form = c.notAfter.form) :
    (c.withNotAfter time).head = c.head := by
  have hvalidity : (c.withNotAfter time).validity.length = c.validity.length := by
    simp only [validity, withNotAfter, List.length_append, Time.length_encode, h]
  have htbs : (c.withNotAfter time).tbsCertificate.length = c.tbsCertificate.length := by
    simp only [tbsCertificate, sequence, element, List.length_append, List.length_cons, hvalidity]
    rfl
  simp only [head, sequence, element, List.length_append, List.length_cons, hvalidity, htbs]
  rfl

end Certificate

end Seamless.Library.X509
