import Seamless.Common.ControlFrame
import Seamless.Library.Base64
import Seamless.Library.Text
import Seamless.Library.X509
import Seamless.Relay.AuthFile
import Seamless.Relay.Calendar

/-!
The expiry of the stored certificate. The relay does not parse the certificate: it goes
through its bytes until it has met two that are the tag of a time, and takes the second
time for the end of the validity period.
-/

namespace Seamless.Relay

open Seamless.Common
open Seamless.Library
open Seamless.Library.Gregorian
open Seamless.Library.Text
open Seamless.Library.X509

/-- A function that gives no value returns `None` or panics. -/
inductive Stop where
  | returnsNone
  | panics
  deriving DecidableEq

/-- The operator `?` on an option. -/
def orNone {α : Type} : Option α → Except Stop α
  | some a => .ok a
  | none => .error .returnsNone

def beginCertificate : List Char := "-----BEGIN CERTIFICATE-----".toList

def endCertificate : List Char := "-----END CERTIFICATE-----".toList

/-- The lines between the first two boundaries, joined. -/
def certificateBody (pem : List Char) : List Char :=
  ((((lines pem).dropWhile fun l => !beginCertificate.isPrefixOf l).drop 1).takeWhile
    fun l => !endCertificate.isPrefixOf l).flatten

def isTimeTag (b : UInt8) : Bool := b == 0x17 || b == 0x18

/-- The loop over `der`: the list is `der[i..]`, `missing` are the times still to be found, and
`skip` is how far `i` has yet to move. -/
def foundTimes : (missing skip : Nat) → List UInt8 → List (List UInt8)
  | 0, _, _ => []
  | _ + 1, _, [] => []
  | missing + 1, skip + 1, _ :: rest => foundTimes (missing + 1) skip rest
  | missing + 1, 0, tag :: rest =>
      if rest.length < 2 then []
      else if isTimeTag tag then
        let len := (rest.headD 0).toNat
        if 1 + len ≤ rest.length then
          (rest.drop 1).take len :: foundTimes missing (1 + len) rest
        else foundTimes (missing + 1) (1 + len) rest
      else foundTimes (missing + 1) 0 rest

/-- `s[start..stop]` for the bytes of a string. A slice that ends behind the string or inside a
character panics. -/
def slice (s : List UInt8) (start stop : Nat) : Except Stop (List Char) :=
  if stop ≤ s.length then
    match fromUtf8 ((s.take stop).drop start) with
    | some text => .ok text.toList
    | none => .error .panics
  else .error .panics

def parseField (s : List UInt8) (start stop : Nat) : Except Stop Int := do
  let text ← slice s start stop
  orNone (parseI64 text)

/-- The year, and the text behind it. -/
def parseYear (s : List UInt8) : Except Stop (Int × List UInt8) :=
  if 15 ≤ s.length then do
    let year ← parseField s 0 4
    .ok (year, s.drop 4)
  else do
    let yy ← parseField s 0 2
    .ok (if yy < 50 then 2000 + yy else 1900 + yy, s.drop 2)

/-- The day number of `YYMMDDHHMMSSZ` or `YYYYMMDDHHMMSSZ`. -/
def parseDate (s : List UInt8) : Except Stop Int := do
  let (year, rest) ← parseYear s
  let month ← parseField rest 0 2
  let day ← parseField rest 2 4
  orNone (daysSinceEpoch year month day)

def expDays (notAfterBytes : List UInt8) : Except Stop Int := do
  let s ← orNone ((fromUtf8 notAfterBytes).map utf8)
  parseDate s

/-- The day of a clock that is not before 1970. -/
def nowDays (now : Int64) : Except Stop Int :=
  if 0 ≤ now.toInt then .ok (now.toInt.tdiv 86400) else .error .returnsNone

def daysUntilNotAfter (der : List UInt8) (now : Int64) : Except Stop Int := do
  let notAfterBytes ← orNone ((foundTimes 2 0 der)[1]?)
  let exp ← expDays notAfterBytes
  let today ← nowDays now
  .ok (exp - today)

def daysUntilExpiry (decode : List UInt8 → Option (List UInt8)) (pem : String) (now : Int64) :
    Except Stop Int :=
  let b64 := certificateBody pem.toList
  if b64.isEmpty then .error .returnsNone
  else do
    let der ← orNone (decode (utf8 (String.ofList b64)))
    daysUntilNotAfter der now

/-- What is stored under the name of the primary domain, which is `none` if there is no file or
it cannot be read, is renewed in its last 30 days or if nothing is known about it. -/
def needsRenewal (decode : List UInt8 → Option (List UInt8)) (domains : List String)
    (stored : TokenFile) (now : Int64) : Except Stop Bool :=
  match domains with
  | [] => .ok false
  | _ :: _ =>
      match readToString stored with
      | .error _ => .ok true
      | .ok pem =>
          match daysUntilExpiry decode pem now with
          | .ok d => .ok (d < 30)
          | .error .returnsNone => .ok true
          | .error .panics => .error .panics

section Stops

variable {α β : Type}

@[simp] theorem ok_bind (a : α) (f : α → Except Stop β) : (Except.ok a >>= f) = f a := rfl

theorem bind_eq_ok {x : Except Stop α} {f : α → Except Stop β} {b : β} :
    (x >>= f) = .ok b ↔ ∃ a, x = .ok a ∧ f a = .ok b := by
  cases x with
  | error e =>
      constructor
      · intro h
        cases h
      · rintro ⟨a, ha, -⟩
        cases ha
  | ok a => simp

@[simp] theorem orNone_some (a : α) : orNone (some a) = .ok a := rfl

theorem orNone_eq_ok {x : Option α} {a : α} : orNone x = .ok a ↔ x = some a := by
  cases x with
  | none => simp [orNone]
  | some b => simp

end Stops

section Parse

variable {time : Time}

theorem digitChar_decimal (n : Nat) : (Char.ofNat (decimal n).toNat).isDigit = true ∧
    (Char.ofNat (decimal n).toNat).toNat - '0'.toNat = n % 10 := by
  have htable : ∀ d ∈ List.range 10, (Char.ofNat (48 + d)).isDigit = true ∧
      (Char.ofNat (48 + d)).toNat - '0'.toNat = d := by decide
  rw [toNat_decimal]
  exact htable (n % 10) (List.mem_range.mpr (Nat.mod_lt n (by decide)))

/-- The value of decimal digits. -/
def decimalValue (digits : List Nat) : Nat := digits.foldl (fun value d => 10 * value + d % 10) 0

theorem digitsValue_decimal (digits : List Nat) :
    digitsValue ((digits.map decimal).map fun b => Char.ofNat b.toNat) =
      some (decimalValue digits) := by
  have hfold : ∀ (digits : List Nat) (value : Nat),
      ((digits.map decimal).map fun b => Char.ofNat b.toNat).foldl (fun value c =>
        value.bind fun n => if c.isDigit then some (10 * n + (c.toNat - '0'.toNat)) else none)
          (some value) = some (digits.foldl (fun value d => 10 * value + d % 10) value) := by
    intro digits
    induction digits with
    | nil => intro value; rfl
    | cons d digits ih =>
        intro value
        obtain ⟨hdigit, hvalue⟩ := digitChar_decimal d
        simp only [List.map_cons, List.foldl_cons, Option.bind_some, hdigit, if_true, hvalue]
        exact ih _
  exact hfold digits 0

theorem parseField_decimal {s : List UInt8} {start stop : Nat} {digits : List Nat}
    (hstop : stop ≤ s.length) (hslice : (s.take stop).drop start = digits.map decimal)
    (hne : digits ≠ []) (hvalue : decimalValue digits < 2 ^ 63) :
    parseField s start stop = .ok (decimalValue digits : Int) := by
  have hascii : ∀ b ∈ digits.map decimal, b.toNat < 128 := by
    intro b hb
    obtain ⟨n, -, rfl⟩ := List.mem_map.mp hb
    rw [toNat_decimal]
    omega
  rw [parseField, slice, if_pos hstop, hslice, fromUtf8_of_ascii hascii]
  simp only [String.toList_ofList, ok_bind]
  rw [parseI64_of_digits (by simpa using hne) (digitsValue_decimal digits) hvalue, orNone_some]

theorem decimalValue_two {n : Nat} (h : n < 100) : decimalValue [n / 10, n] = n := by
  simp only [decimalValue, List.foldl_cons, List.foldl_nil]
  omega

theorem decimalValue_four {n : Nat} (h : n < 10000) :
    decimalValue [n / 100 / 10, n / 100, n % 100 / 10, n % 100] = n := by
  simp only [decimalValue, List.foldl_cons, List.foldl_nil]
  omega

theorem parseField_two {s : List UInt8} {start stop n : Nat} (hstop : stop ≤ s.length)
    (hslice : (s.take stop).drop start = twoDigits n) (hn : n < 100) :
    parseField s start stop = .ok (n : Int) := by
  have hvalue := decimalValue_two hn
  have hdigits : (s.take stop).drop start = [n / 10, n].map decimal := hslice
  rw [parseField_decimal hstop hdigits (by simp) (by omega), hvalue]

theorem parseField_four {s : List UInt8} {start stop n : Nat} (hstop : stop ≤ s.length)
    (hslice : (s.take stop).drop start = twoDigits (n / 100) ++ twoDigits (n % 100))
    (hn : n < 10000) : parseField s start stop = .ok (n : Int) := by
  have hvalue := decimalValue_four hn
  have hdigits : (s.take stop).drop start =
      [n / 100 / 10, n / 100, n % 100 / 10, n % 100].map decimal := hslice
  rw [parseField_decimal hstop hdigits (by simp) (by omega), hvalue]

/-- What stands behind the year. -/
def afterYear (time : Time) : List UInt8 :=
  twoDigits time.date.month ++ (twoDigits time.date.day ++ (twoDigits time.hour ++
    (twoDigits time.minute ++ (twoDigits time.second ++ [0x5a]))))

theorem text_eq (time : Time) : time.text = time.yearText ++ afterYear time := by
  simp [Time.text, afterYear]

theorem parseYear_text (time : Time) :
    parseYear time.text = .ok (time.date.year, afterYear time) := by
  have hlength := time.length_text
  have hfirst := time.firstYear_le
  have hyear := time.year_lt
  rw [text_eq] at hlength ⊢
  unfold Time.yearText at hlength ⊢
  cases hform : time.form with
  | utcTime =>
      rw [hform] at hlength hfirst hyear
      simp only [TimeForm.textLength, TimeForm.firstYear, TimeForm.years] at hlength hfirst hyear ⊢
      rw [parseYear, if_neg (by omega),
        parseField_two (n := time.date.year.toNat % 100) (by omega) rfl (by omega)]
      simp only [ok_bind]
      congr 2
      split <;> omega
  | generalizedTime =>
      rw [hform] at hlength hfirst hyear
      simp only [TimeForm.textLength, TimeForm.firstYear, TimeForm.years] at hlength hfirst hyear ⊢
      rw [parseYear, if_pos (by omega),
        parseField_four (n := time.date.year.toNat) (by omega) rfl (by omega)]
      simp only [ok_bind]
      congr 2
      omega

theorem month_lt (time : Time) : time.date.month < 100 ∧ time.date.day < 100 := by
  have hmonth := time.valid.month_le
  have hday := time.valid.day_le.trans (monthLength_le _ _)
  omega

theorem expDays_text (time : Time) : expDays time.text = .ok time.date.dayNumber := by
  have hascii : ∀ b ∈ time.text, b.toNat < 128 := by
    intro b hb
    have hle := (time.mem_text hb).2
    omega
  have hutf8 : (fromUtf8 time.text).map utf8 = some time.text := by
    rw [fromUtf8_of_ascii hascii, Option.map_some,
      utf8_of_fromUtf8 (fromUtf8_of_ascii hascii)]
  have hfirst := time.firstYear_le
  have hpos : 0 ≤ time.form.firstYear := by
    cases time.form with
    | utcTime => decide
    | generalizedTime => decide
  obtain ⟨hmonth, hday⟩ := month_lt time
  have hfield : parseField (afterYear time) 0 2 = .ok (time.date.month : Int) :=
    parseField_two (by simp [afterYear, twoDigits]) rfl hmonth
  have hfield' : parseField (afterYear time) 2 4 = .ok (time.date.day : Int) :=
    parseField_two (by simp [afterYear, twoDigits]) rfl hday
  unfold expDays parseDate
  rw [hutf8]
  simp only [orNone_some, ok_bind, parseYear_text, hfield, hfield',
    daysSinceEpoch_eq time.valid (show -4799 ≤ time.date.year by omega)]

variable {s s' : List UInt8}

theorem parseField_drop (hlength : s.length = s'.length) (hfront : s.take 8 = s'.take 8)
    (k start stop : Nat) (h : k + stop ≤ 8) :
    parseField (s.drop k) start stop = parseField (s'.drop k) start stop := by
  have htake : ∀ l : List UInt8, (l.drop k).take stop = ((l.take 8).take (k + stop)).drop k := by
    intro l
    rw [List.take_take, Nat.min_eq_left h, List.take_drop]
  simp only [parseField, slice, List.length_drop, htake, hlength, hfront]

theorem parseDate_front (hlength : s.length = s'.length) (hfront : s.take 8 = s'.take 8) :
    parseDate s = parseDate s' := by
  have hfield := parseField_drop hlength hfront
  have hyear : ∀ stop ≤ 8, parseField s 0 stop = parseField s' 0 stop :=
    fun stop hstop => hfield 0 0 stop (by omega)
  unfold parseDate parseYear
  rw [hlength]
  split
  · simp only [bind_assoc, ok_bind, hyear 4 (by decide), hfield 4 0 2 (by decide),
      hfield 4 2 4 (by decide)]
  · simp only [bind_assoc, ok_bind, hyear 2 (by decide), hfield 2 0 2 (by decide),
      hfield 2 2 4 (by decide)]

theorem expDays_front {d d' : Int} (hlength : s.length = s'.length)
    (hfront : s.take 8 = s'.take 8) (h : expDays s = .ok d) (h' : expDays s' = .ok d') :
    d = d' := by
  have hparse : ∀ {l : List UInt8} {d : Int}, expDays l = .ok d → parseDate l = .ok d := by
    intro l d hl
    obtain ⟨bytes, hbytes, hdate⟩ := bind_eq_ok.mp hl
    obtain ⟨text, htext, rfl⟩ := Option.map_eq_some_iff.mp (orNone_eq_ok.mp hbytes)
    rw [utf8_of_fromUtf8 htext] at hdate
    exact hdate
  have hsame := hparse h
  rw [parseDate_front hlength hfront, hparse h'] at hsame
  exact (Except.ok.inj hsame).symm

end Parse

theorem daysUntilNotAfter_eq_ok {der : List UInt8} {now : Int64} {n : Int} :
    daysUntilNotAfter der now = .ok n ↔ ∃ s d, (foundTimes 2 0 der)[1]? = some s ∧
      expDays s = .ok d ∧ 0 ≤ now.toInt ∧ n = d - now.toInt / 86400 := by
  have htoday : ∀ today, nowDays now = .ok today ↔
      0 ≤ now.toInt ∧ today = now.toInt / 86400 := by
    intro today
    unfold nowDays
    split
    · rename_i hnow
      rw [Int.tdiv_eq_ediv_of_nonneg hnow, Except.ok.injEq]
      exact ⟨fun h => ⟨hnow, h.symm⟩, fun h => h.2.symm⟩
    · rename_i hnow
      simp [hnow]
  simp only [daysUntilNotAfter, bind_eq_ok, orNone_eq_ok, htoday, Except.ok.injEq]
  constructor
  · rintro ⟨s, hs, d, hd, today, ⟨hnow, rfl⟩, rfl⟩
    exact ⟨s, d, hs, hd, hnow, rfl⟩
  · rintro ⟨s, d, hs, hd, hnow, rfl⟩
    exact ⟨s, hs, d, hd, _, ⟨hnow, rfl⟩, rfl⟩

section Pem

variable {pem : String} {der : List UInt8}

/-- The decoder of the `base64` crate undoes the standard encoding. -/
structure Base64Engine where
  decode : List UInt8 → Option (List UInt8)
  decode_encode : ∀ bytes, decode (utf8 (String.ofList (Base64.encode bytes))) = some bytes

def Base64Engine.standard : Base64Engine where
  decode := fun bytes => (fromUtf8 bytes).bind fun text => Base64.decode text.toList
  decode_encode := by
    intro bytes
    rw [fromUtf8_utf8, Option.bind_some, String.toList_ofList, Base64.decode_encode]

/-- The first certificate block of the text is the base64 of `der`, broken into lines. -/
def FirstCertificate (pem : String) (der : List UInt8) : Prop :=
  ∃ before opening body closing after,
    lines pem.toList = before ++ opening :: (body ++ closing :: after) ∧
      (∀ l ∈ before, ¬ beginCertificate <+: l) ∧ beginCertificate <+: opening ∧
      endCertificate <+: closing ∧ body.flatten = Base64.encode der

theorem not_boundary {boundary l : List Char} (h : ¬ boundary <+: l) :
    (!boundary.isPrefixOf l) = true := by
  rw [Bool.not_eq_true', ← Bool.not_eq_true, List.isPrefixOf_iff_prefix]
  exact h

theorem certificateBody_eq (h : FirstCertificate pem der) :
    certificateBody pem.toList = Base64.encode der := by
  obtain ⟨before, opening, body, closing, after, hlines, hbefore, hopening, hclosing, hbody⟩ := h
  have hskip : ∀ l ∈ before, (!beginCertificate.isPrefixOf l) = true :=
    fun l hl => not_boundary (hbefore l hl)
  have htake : ∀ l ∈ body, (!endCertificate.isPrefixOf l) = true := by
    intro l hl
    apply not_boundary
    intro hend
    have hdash : '-' ∈ body.flatten :=
      List.mem_flatten.mpr ⟨l, hl, hend.subset (by decide)⟩
    rw [hbody] at hdash
    exact absurd (Base64.mem_encode hdash) (by decide)
  rw [certificateBody, hlines, List.dropWhile_append_of_pos hskip,
    List.dropWhile_cons_of_neg (by simpa using hopening), List.drop_succ_cons, List.drop_zero,
    List.takeWhile_append_of_pos htake, List.takeWhile_cons_of_neg (by simpa using hclosing),
    List.append_nil, hbody]

theorem daysUntilExpiry_eq (engine : Base64Engine) (now : Int64) (h : FirstCertificate pem der)
    (hne : der ≠ []) : daysUntilExpiry engine.decode pem now = daysUntilNotAfter der now := by
  have hbody : (Base64.encode der).isEmpty = false := by
    simpa using Base64.encode_ne_nil hne
  rw [daysUntilExpiry, certificateBody_eq h]
  simp only [hbody, Bool.false_eq_true, if_false, engine.decode_encode, orNone_some, ok_bind]

theorem lines_line {l rest : List Char} (hnewline : '\n' ∉ l) (hreturn : '\r' ∉ l) :
    lines (l ++ '\n' :: rest) = l :: lines rest := by
  induction l with
  | nil => rfl
  | cons c l ih =>
      obtain ⟨hfirst, hnewline⟩ := List.ne_and_not_mem_of_not_mem_cons hnewline
      obtain ⟨hfirst', hreturn⟩ := List.ne_and_not_mem_of_not_mem_cons hreturn
      rw [List.cons_append, lines, ih hnewline hreturn]
      · exact hfirst.symm
      · intro rest' hc
        exact absurd hc.symm hfirst'

/-- The certificate in one line between its boundaries. -/
def onePem (der : List UInt8) : String :=
  String.ofList (beginCertificate ++ '\n' :: (Base64.encode der ++ '\n' ::
    (endCertificate ++ '\n' :: [])))

theorem firstCertificate_onePem (der : List UInt8) : FirstCertificate (onePem der) der := by
  have hencode : ∀ c, c ∉ '=' :: Base64.alphabet → c ∉ Base64.encode der :=
    fun c hc hmem => hc (Base64.mem_encode hmem)
  refine ⟨[], beginCertificate, [Base64.encode der], endCertificate, [], ?_, by simp,
    List.prefix_rfl, List.prefix_rfl, by simp⟩
  rw [onePem, String.toList_ofList, lines_line (by decide) (by decide),
    lines_line (hencode _ (by decide)) (hencode _ (by decide)),
    lines_line (by decide) (by decide)]
  rfl

end Pem

end Seamless.Relay
