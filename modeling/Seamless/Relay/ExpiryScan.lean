import Seamless.Relay.CertExpiry

/-!
Which time of a certificate the scan for tags comes to. Any byte before the validity
period can be mistaken for a tag: the length behind it then says where the scan goes on,
and whether that is in step with the period again.
-/

namespace Seamless.Relay

open Seamless.Common
open Seamless.Library
open Seamless.Library.Gregorian
open Seamless.Library.X509

section Scan

variable {missing : Nat} {l : List UInt8}

theorem foundTimes_nil (missing skip : Nat) : foundTimes missing skip [] = [] := by
  cases missing with
  | zero => rfl
  | succ missing => rfl

theorem foundTimes_zero (skip : Nat) (l : List UInt8) : foundTimes 0 skip l = [] := by
  cases l with
  | nil => rfl
  | cons b l => rfl

theorem foundTimes_skip (missing skip : Nat) (l : List UInt8) :
    foundTimes missing skip l = foundTimes missing 0 (l.drop skip) := by
  induction l generalizing skip with
  | nil => simp [foundTimes_nil]
  | cons b l ih =>
      rcases missing with _ | missing
      · rw [foundTimes_zero, foundTimes_zero]
      · rcases skip with _ | skip
        · rfl
        · exact ih skip

theorem foundTimes_short (h : l.length < 3) : foundTimes missing 0 l = [] := by
  rcases missing with _ | missing
  · exact foundTimes_zero 0 l
  · rcases l with _ | ⟨b, l⟩
    · rfl
    · rw [foundTimes, if_pos (Nat.lt_of_succ_lt_succ h)]

theorem foundTimes_clear {clear : List UInt8} (h : ∀ b ∈ clear, isTimeTag b = false) :
    foundTimes missing 0 (clear ++ l) = foundTimes missing 0 l := by
  rcases missing with _ | missing
  · rw [foundTimes_zero, foundTimes_zero]
  induction clear with
  | nil => rfl
  | cons b clear ih =>
      rw [List.forall_mem_cons] at h
      rw [List.cons_append, foundTimes, h.1]
      split
      · rename_i hshort
        rw [List.length_append] at hshort
        rw [foundTimes_short (by omega)]
      · exact ih h.2

theorem foundTimes_tag {tag len : UInt8} {body : List UInt8} (htag : isTimeTag tag = true)
    (hbody : body ≠ []) :
    foundTimes (missing + 1) 0 (tag :: len :: body) =
      if len.toNat ≤ body.length then
        body.take len.toNat :: foundTimes missing 0 (body.drop len.toNat)
      else [] := by
  have hpos : 0 < body.length := List.length_pos_iff.mpr hbody
  rw [foundTimes, htag, if_neg (by simp; omega), if_pos rfl]
  simp only [List.headD_cons, List.length_cons, List.drop_succ_cons, List.drop_zero]
  rw [foundTimes_skip missing, foundTimes_skip (missing + 1), Nat.add_comm 1 len.toNat,
    List.drop_succ_cons]
  by_cases hlen : len.toNat ≤ body.length
  · rw [if_pos (by omega), if_pos hlen]
  · rw [if_neg (by omega), if_neg hlen, List.drop_eq_nil_of_le (by omega), foundTimes_nil]

end Scan

section Period

variable {missing : Nat} {c : Certificate} {time : Time} {l : List UInt8}

/-- The scan comes to `notAfter` second: no byte before `notBefore` is taken for a tag, or the
first that is has a length that leads into `notBefore`, behind its tag. -/
def InStep (c : Certificate) : Prop :=
  (∀ b ∈ c.head, isTimeTag b = false) ∨
    ∃ clear tag len covered, c.head = clear ++ tag :: len :: covered ∧
      (∀ b ∈ clear, isTimeTag b = false) ∧ isTimeTag tag = true ∧
      covered.length < len.toNat ∧ len.toNat ≤ covered.length + c.notBefore.encode.length

theorem isTimeTag_tag (form : TimeForm) : isTimeTag form.tag = true := by
  cases form with
  | utcTime => rfl
  | generalizedTime => rfl

theorem toNat_textLength (form : TimeForm) :
    (UInt8.ofNat form.textLength).toNat = form.textLength := by
  cases form with
  | utcTime => rfl
  | generalizedTime => rfl

theorem isTimeTag_inside (time : Time) {b : UInt8}
    (h : b ∈ UInt8.ofNat time.form.textLength :: time.text) : isTimeTag b = false := by
  rcases List.mem_cons.mp h with rfl | h
  · cases time.form with
    | utcTime => rfl
    | generalizedTime => rfl
  · have hle := (time.mem_text h).1
    simp only [isTimeTag, Bool.or_eq_false_iff, beq_eq_false_iff_ne]
    constructor
    · rintro rfl
      exact absurd hle (by decide)
    · rintro rfl
      exact absurd hle (by decide)

theorem foundTimes_time (time : Time) (l : List UInt8) :
    foundTimes (missing + 1) 0 (time.encode ++ l) = time.text :: foundTimes missing 0 l := by
  have hlength := time.length_text
  have hne : time.text ++ l ≠ [] := by
    intro hnil
    rw [(List.append_eq_nil_iff.mp hnil).1] at hlength
    cases hform : time.form with
    | utcTime => simp [hform, TimeForm.textLength] at hlength
    | generalizedTime => simp [hform, TimeForm.textLength] at hlength
  rw [time.encode_eq, List.cons_append, List.cons_append,
    foundTimes_tag (isTimeTag_tag _) hne, toNat_textLength, ← hlength, if_pos (by simp),
    List.take_left, List.drop_left]

theorem foundTimes_past (time : Time) (l : List UInt8) {k : Nat} (hk : 1 ≤ k) :
    foundTimes missing 0 ((time.encode ++ l).drop k) =
      foundTimes missing 0 (l.drop (k - time.encode.length)) := by
  rw [List.drop_append]
  apply foundTimes_clear
  intro b hb
  obtain ⟨k, rfl⟩ : ∃ j, k = j + 1 := ⟨k - 1, by omega⟩
  rw [time.encode_eq, List.drop_succ_cons] at hb
  exact isTimeTag_inside time (List.mem_of_mem_drop hb)

theorem foundTimes_of_inStep (h : InStep c) :
    (foundTimes 2 0 c.encode)[1]? = some c.notAfter.text := by
  rw [c.encode_eq]
  rcases h with hclear | ⟨clear, tag, len, covered, hhead, hclear, htag, hbefore, hbehind⟩
  · rw [foundTimes_clear hclear, foundTimes_time, foundTimes_time]
    rfl
  · have hlength := c.notBefore.length_encode
    rw [hhead, List.append_assoc, foundTimes_clear hclear, List.cons_append, List.cons_append,
      foundTimes_tag htag (by intro hnil; simp [Time.encode_eq] at hnil),
      if_pos (by simp only [List.length_append]; omega), List.drop_append,
      List.drop_eq_nil_of_le (by omega), List.nil_append, foundTimes_past _ _ (by omega),
      Nat.sub_eq_zero_of_le (by omega), List.drop_zero, foundTimes_time]
    rfl

theorem clear_or_firstTag (l : List UInt8) : (∀ b ∈ l, isTimeTag b = false) ∨
    ∃ clear tag more, l = clear ++ tag :: more ∧ (∀ b ∈ clear, isTimeTag b = false) ∧
      isTimeTag tag = true := by
  induction l with
  | nil => exact .inl (by simp)
  | cons b l ih =>
      by_cases hb : isTimeTag b = true
      · exact .inr ⟨[], b, l, rfl, by simp, hb⟩
      · have hb' : isTimeTag b = false := by simpa using hb
        rcases ih with hclear | ⟨clear, tag, more, rfl, hclear, htag⟩
        · exact .inl (List.forall_mem_cons.mpr ⟨hb', hclear⟩)
        · exact .inr ⟨b :: clear, tag, more, rfl, List.forall_mem_cons.mpr ⟨hb', hclear⟩, htag⟩

theorem foundTimes_before (front : List UInt8) (time : Time) : ∃ body len, 8 ≤ body.length ∧
    ∀ l, foundTimes 1 0 (front ++ (time.encode ++ l)) =
      if len ≤ (body ++ l).length then [(body ++ l).take len] else [] := by
  have hlength := time.length_text
  have hlong : 13 ≤ time.form.textLength := by
    cases time.form with
    | utcTime => decide
    | generalizedTime => decide
  rcases clear_or_firstTag front with hclear | ⟨clear, tag, more, rfl, hclear, htag⟩
  · refine ⟨time.text, time.text.length, by omega, fun l => ?_⟩
    rw [foundTimes_clear hclear, foundTimes_time, foundTimes_zero, if_pos (by simp),
      List.take_left]
  · rcases more with _ | ⟨len, covered⟩
    · refine ⟨.ofNat time.form.textLength :: time.text, time.form.tag.toNat, by simp; omega,
        fun l => ?_⟩
      rw [List.append_assoc, foundTimes_clear hclear, time.encode_eq]
      simp only [List.cons_append, List.nil_append]
      rw [foundTimes_tag htag (by simp)]
      simp only [foundTimes_zero]
    · refine ⟨covered ++ time.encode, len.toNat, ?_, fun l => ?_⟩
      · rw [List.length_append, time.length_encode]
        omega
      · rw [List.append_assoc, foundTimes_clear hclear]
        simp only [List.cons_append]
        rw [foundTimes_tag htag (by simp [time.encode_eq])]
        simp only [foundTimes_zero, List.append_assoc]

theorem second_of_first {body s : List UInt8} {len : Nat} {more : List (List UInt8)}
    (h : (if len ≤ body.length then body.take len :: more else [])[1]? = some s) :
    more[0]? = some s := by
  split at h
  · exact h
  · simp at h

theorem foundTimes_behind {body : List UInt8} {len : Nat} (time : Time) (l : List UInt8)
    (h : body.length < len) : foundTimes missing 0 ((body ++ (time.encode ++ l)).drop len) =
      foundTimes missing 0 (l.drop (len - body.length - time.encode.length)) := by
  rw [List.drop_append, List.drop_eq_nil_of_le h.le, List.nil_append]
  exact foundTimes_past time l (by omega)

/-- Two texts that are read alike. -/
def SameFront (s s' : List UInt8) : Prop := s.length = s'.length ∧ s.take 8 = s'.take 8

theorem sameFront_take {body l l' s s' : List UInt8} {len : Nat} (hbody : 8 ≤ body.length)
    (hs : (if len ≤ (body ++ l).length then [(body ++ l).take len] else [])[0]? = some s)
    (hs' : (if len ≤ (body ++ l').length then [(body ++ l').take len] else [])[0]? = some s') :
    SameFront s s' := by
  have htaken : ∀ {l s : List UInt8},
      (if len ≤ (body ++ l).length then [(body ++ l).take len] else [])[0]? = some s →
        s.length = len ∧ s.take 8 = body.take (min 8 len) := by
    intro l s h
    split at h
    · rename_i hlen
      obtain rfl : (body ++ l).take len = s := by simpa using h
      rw [List.length_take, List.take_take, List.take_append_of_le_length (by omega)]
      exact ⟨Nat.min_eq_left hlen, rfl⟩
    · simp at h
  obtain ⟨hlength, hfront⟩ := htaken hs
  obtain ⟨hlength', hfront'⟩ := htaken hs'
  exact ⟨hlength.trans hlength'.symm, hfront.trans hfront'.symm⟩

theorem sameFront_behind {time' : Time} {body s s' : List UInt8} {len : Nat}
    (hlen : body.length < len) (hlength : time.encode.length = time'.encode.length)
    (hs : (foundTimes 1 0 ((body ++ (time.encode ++ l)).drop len))[0]? = some s)
    (hs' : (foundTimes 1 0 ((body ++ (time'.encode ++ l)).drop len))[0]? = some s') :
    SameFront s s' := by
  rw [foundTimes_behind time l hlen, hlength] at hs
  rw [foundTimes_behind time' l hlen, hs] at hs'
  obtain rfl := Option.some.inj hs'
  exact ⟨rfl, rfl⟩

theorem encode_withNotAfter (h : time.form = c.notAfter.form) : (c.withNotAfter time).encode =
    c.head ++ (c.notBefore.encode ++ (time.encode ++ c.tail)) := by
  rw [Certificate.encode_eq, Certificate.head_withNotAfter h]
  rfl

theorem sameFront_of_not_inStep {time' : Time} {s s' : List UInt8} (h : ¬ InStep c)
    (hform : time.form = c.notAfter.form) (hform' : time'.form = c.notAfter.form)
    (hs : (foundTimes 2 0 (c.withNotAfter time).encode)[1]? = some s)
    (hs' : (foundTimes 2 0 (c.withNotAfter time').encode)[1]? = some s') : SameFront s s' := by
  have hlength : time.encode.length = time'.encode.length := by
    rw [time.length_encode, time'.length_encode, hform, hform']
  rw [encode_withNotAfter hform] at hs
  rw [encode_withNotAfter hform'] at hs'
  rcases clear_or_firstTag c.head with hclear | ⟨clear, tag, more, hhead, hclear, htag⟩
  · exact absurd (.inl hclear) h
  rw [hhead, List.append_assoc, foundTimes_clear hclear] at hs hs'
  rcases more with _ | ⟨len, covered⟩
  · -- the tag of `notBefore` is taken for a length, which is more than that of a time
    have hinside := c.notBefore.length_text
    have htagged : c.notBefore.form.textLength + 1 < c.notBefore.form.tag.toNat := by
      cases c.notBefore.form with
      | utcTime => decide
      | generalizedTime => decide
    rw [c.notBefore.encode_eq, List.cons_append, List.nil_append, List.cons_append,
      foundTimes_tag htag (by simp)] at hs hs'
    have hbehind : (UInt8.ofNat c.notBefore.form.textLength :: c.notBefore.text).length <
        c.notBefore.form.tag.toNat := by
      rw [List.length_cons, hinside]
      exact htagged
    exact sameFront_behind hbehind hlength (second_of_first hs) (second_of_first hs')
  · rw [List.cons_append, List.cons_append,
      foundTimes_tag htag (by simp [Time.encode_eq])] at hs hs'
    have hsecond := second_of_first hs
    have hsecond' := second_of_first hs'
    by_cases hcovered : len.toNat ≤ covered.length
    · rw [List.drop_append_of_le_length hcovered] at hsecond hsecond'
      obtain ⟨body, len', hbody, hfound⟩ :=
        foundTimes_before (covered.drop len.toNat) c.notBefore
      rw [hfound] at hsecond hsecond'
      exact sameFront_take hbody hsecond hsecond'
    · have hbehind : (covered ++ c.notBefore.encode).length < len.toNat := by
        by_contra hle
        rw [List.length_append] at hle
        exact h (.inr ⟨clear, tag, len, covered, hhead, hclear, htag, by omega, by omega⟩)
      rw [← List.append_assoc] at hsecond hsecond'
      exact sameFront_behind hbehind hlength hsecond hsecond'

end Period

section Reading

variable {c : Certificate} {now : Int64}

/-- Whatever the end of the certificate's validity period is, the days that are left until then
are returned for every text that starts with the certificate. -/
def ReadsExpiry (engine : Base64Engine) (c : Certificate) (now : Int64) : Prop :=
  ∀ notAfter : Time, notAfter.form = c.notAfter.form →
    ∀ pem, FirstCertificate pem (c.withNotAfter notAfter).encode →
      daysUntilExpiry engine.decode pem now =
        .ok (notAfter.date.dayNumber - now.toInt / 86400)

theorem encode_ne_nil (c : Certificate) : c.encode ≠ [] := by
  simp [Certificate.encode_eq, Certificate.head]

theorem daysUntilExpiry_of_inStep (engine : Base64Engine) {pem : String} (hstep : InStep c)
    (hnow : 0 ≤ now.toInt) (hpem : FirstCertificate pem c.encode) :
    daysUntilExpiry engine.decode pem now =
      .ok (c.notAfter.date.dayNumber - now.toInt / 86400) := by
  rw [daysUntilExpiry_eq engine now hpem (encode_ne_nil c), daysUntilNotAfter_eq_ok]
  exact ⟨c.notAfter.text, _, foundTimes_of_inStep hstep, expDays_text c.notAfter, hnow, rfl⟩

theorem inStep_withNotAfter {time : Time} (hform : time.form = c.notAfter.form) :
    InStep (c.withNotAfter time) ↔ InStep c := by
  unfold InStep
  rw [Certificate.head_withNotAfter hform]
  rfl

/-- Two ends of a validity period in either form. -/
def newYear (form : TimeForm) : Time where
  form := form
  date := ⟨2000, 1, 1⟩
  hour := 0
  minute := 0
  second := 0
  valid := ⟨by decide, by decide, by decide, by decide⟩
  firstYear_le := by cases form <;> decide
  year_lt := by cases form <;> decide
  hour_lt := by decide
  minute_lt := by decide
  second_lt := by decide

def dayAfter (form : TimeForm) : Time :=
  { newYear form with date := ⟨2000, 1, 2⟩, valid := ⟨by decide, by decide, by decide, by decide⟩ }

theorem dayNumber_dayAfter (form : TimeForm) :
    (dayAfter form).date.dayNumber = (newYear form).date.dayNumber + 1 :=
  CivilDate.dayNumber_next (newYear form).valid

/-- The expiry is read exactly if the scan is in step and the clock is not before 1970. -/
theorem readsExpiry_iff (engine : Base64Engine) (c : Certificate) (now : Int64) :
    ReadsExpiry engine c now ↔ InStep c ∧ 0 ≤ now.toInt := by
  constructor
  · intro hreads
    have hread : ∀ notAfter : Time, notAfter.form = c.notAfter.form → ∃ s,
        (foundTimes 2 0 (c.withNotAfter notAfter).encode)[1]? = some s ∧
          expDays s = .ok notAfter.date.dayNumber ∧ 0 ≤ now.toInt := by
      intro notAfter hform
      have hdays := hreads notAfter hform _ (firstCertificate_onePem _)
      rw [daysUntilExpiry_eq engine now (firstCertificate_onePem _) (encode_ne_nil _)] at hdays
      obtain ⟨s, d, hs, hd, hnow, hn⟩ := daysUntilNotAfter_eq_ok.mp hdays
      obtain rfl : notAfter.date.dayNumber = d := by omega
      exact ⟨s, hs, hd, hnow⟩
    have hform : (newYear c.notAfter.form).form = c.notAfter.form := rfl
    have hform' : (dayAfter c.notAfter.form).form = c.notAfter.form := rfl
    obtain ⟨s, hs, hd, hnow⟩ := hread (newYear c.notAfter.form) hform
    obtain ⟨s', hs', hd', -⟩ := hread (dayAfter c.notAfter.form) hform'
    refine ⟨?_, hnow⟩
    by_contra hout
    obtain ⟨hlength, hfront⟩ := sameFront_of_not_inStep hout hform hform' hs hs'
    have hsame := expDays_front hlength hfront hd hd'
    rw [dayNumber_dayAfter] at hsame
    omega
  · rintro ⟨hstep, hnow⟩ notAfter hform pem hpem
    exact daysUntilExpiry_of_inStep engine ((inStep_withNotAfter hform).mpr hstep) hnow hpem

theorem needsRenewal_of_inStep (engine : Base64Engine) {domains : List String} {pem : String}
    (hdomains : domains ≠ []) (hstep : InStep c) (hnow : 0 ≤ now.toInt)
    (hpem : FirstCertificate pem c.encode) :
    needsRenewal engine.decode domains (some (utf8 pem)) now =
      .ok (decide (c.notAfter.date.dayNumber - now.toInt / 86400 < 30)) := by
  rcases domains with _ | ⟨domain, domains⟩
  · exact absurd rfl hdomains
  · simp only [needsRenewal, readToString, fromUtf8_utf8,
      daysUntilExpiry_of_inStep engine hstep hnow hpem]

/-- A common name. -/
def commonName (name : String) : List UInt8 :=
  element 0x31 (sequence (element 0x06 [0x55, 0x04, 0x03] ++ element 0x0c (utf8 name)))

def ed25519 : List UInt8 := element 0x06 [0x2b, 0x65, 0x70]

/-- Midnight in a month of 2025. -/
def midnight (month : Nat) (hpos : 1 ≤ month) (hle : month ≤ 12) : Time where
  form := .utcTime
  date := ⟨2025, month, 1⟩
  hour := 0
  minute := 0
  second := 0
  valid := ⟨hpos, hle, le_rfl, monthLength_pos _ _⟩
  firstYear_le := show (1950 : Int) ≤ 2025 by decide
  year_lt := show (2025 : Int) < 1950 + 100 by decide
  hour_lt := by decide
  minute_lt := by decide
  second_lt := by decide

/-- A certificate for the first three months of 2025. -/
def numbered (serialNumber : List UInt8) : Certificate where
  version := some 2
  serialNumber := serialNumber
  signature := ed25519
  issuer := commonName "Seamless relay certificate authority"
  notBefore := midnight 1 (by decide) (by decide)
  notAfter := midnight 4 (by decide) (by decide)
  subject := commonName "relay.example"
  fields := sequence (sequence ed25519 ++ element 0x03 (0x00 :: List.replicate 32 0x09))
  signatureAlgorithm := ed25519
  signatureValue := 0x00 :: List.replicate 64 0x01

/-- Of the certificate with the serial number 23 the scan takes the number for a tag, and the
start of the period for its end: two weeks after it there are -14 days left, not 76. -/
theorem serial23_misread :
    FirstCertificate (onePem (numbered [0x17]).encode) (numbered [0x17]).encode ∧
      daysUntilExpiry Base64Engine.standard.decode (onePem (numbered [0x17]).encode) 1736899200 =
        .ok (-14) ∧
      (numbered [0x17]).notAfter.date.dayNumber - (1736899200 : Int64).toInt / 86400 = 76 := by
  refine ⟨firstCertificate_onePem _, ?_, by decide +kernel⟩
  rw [daysUntilExpiry_eq _ _ (firstCertificate_onePem _) (encode_ne_nil _),
    daysUntilNotAfter_eq_ok]
  exact ⟨(numbered [0x17]).notBefore.text, _, by decide +kernel, expDays_text _,
    by decide +kernel, by decide +kernel⟩

example : InStep (numbered [0x01]) := .inl (by decide +kernel)

end Reading

end Seamless.Relay
