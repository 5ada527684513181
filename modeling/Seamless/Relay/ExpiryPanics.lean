import Seamless.Relay.ExpiryScan

/-!
The slices that the expiry check takes out of what it found, whose length and content are
those of the file.
-/

namespace Seamless.Relay

open Seamless.Common
open Seamless.Library
open Seamless.Library.Text

/-- The first byte of `l` that is the tag of a time has the length of `time` behind it, and then
`time`. -/
def FirstTime (l time rest : List UInt8) : Prop :=
  ∃ clear tag len, l = clear ++ tag :: len :: (time ++ rest) ∧
    (∀ b ∈ clear, isTimeTag b = false) ∧ isTimeTag tag = true ∧ len.toNat = time.length ∧
    time ++ rest ≠ []

/-- The time that is taken for `notAfter`. -/
def SecondTime (der time : List UInt8) : Prop :=
  ∃ first rest rest', FirstTime der first rest ∧ FirstTime rest time rest'

/-- The bytes from `start` to `stop` are there and are the text `text`. -/
def Piece (s : List UInt8) (start stop : Nat) (text : String) : Prop :=
  stop ≤ s.length ∧ fromUtf8 ((s.take stop).drop start) = some text

def IsI64 (text : String) : Prop := (parseI64 text.toList).isSome

def yearDigits (s : List UInt8) : Nat := if 15 ≤ s.length then 4 else 2

/-- The year ends between two characters and, as far as the pieces before are numbers, so do the
month and the day. -/
def DateCuts (s : List UInt8) : Prop :=
  ∃ year, Piece s 0 (yearDigits s) year ∧ (IsI64 year →
    ∃ month, Piece s (yearDigits s) (yearDigits s + 2) month ∧ (IsI64 month →
      ∃ day, Piece s (yearDigits s + 2) (yearDigits s + 4) day))

section Stops

variable {α β : Type}

theorem bind_eq_panics {x : Except Stop α} {f : α → Except Stop β} :
    (x >>= f) = .error .panics ↔ x = .error .panics ∨ ∃ a, x = .ok a ∧ f a = .error .panics := by
  cases x with
  | error e =>
      constructor
      · intro h
        exact .inl (congrArg _ (Except.error.inj h))
      · rintro (h | ⟨a, h, -⟩)
        · rw [h]
          rfl
        · cases h
  | ok a => simp

theorem orNone_ne_panics (x : Option α) : orNone x ≠ .error .panics := by
  cases x with
  | none => simp [orNone]
  | some a => simp

end Stops

section Slices

variable {s : List UInt8} {start stop k : Nat}

theorem slice_eq_ok {text : List Char} :
    slice s start stop = .ok text ↔ ∃ t, Piece s start stop t ∧ text = t.toList := by
  unfold slice Piece
  split
  · rename_i hstop
    split
    · rename_i t ht
      simp only [Except.ok.injEq, hstop, ht, true_and, Option.some.injEq]
      constructor
      · rintro rfl
        exact ⟨t, rfl, rfl⟩
      · rintro ⟨t', rfl, rfl⟩
        rfl
    · rename_i hnone
      simp [hnone]
  · rename_i hstop
    simp [hstop]

theorem slice_eq_panics : slice s start stop = .error .panics ↔ ¬ ∃ t, Piece s start stop t := by
  unfold slice Piece
  split
  · rename_i hstop
    split
    · rename_i t ht
      simp [hstop, ht]
    · rename_i hnone
      simp [hnone]
  · rename_i hstop
    simp [hstop]

theorem slice_drop (h : k ≤ s.length) :
    slice (s.drop k) start stop = slice s (k + start) (k + stop) := by
  have hpiece : ((s.drop k).take stop).drop start = (s.take (k + stop)).drop (k + start) := by
    rw [List.take_drop, List.drop_drop]
  have hstop : stop ≤ (s.drop k).length ↔ k + stop ≤ s.length := by
    rw [List.length_drop]
    omega
  simp only [slice, hpiece, hstop]

theorem parseField_eq_ok {n : Int} :
    parseField s start stop = .ok n ↔ ∃ t, Piece s start stop t ∧ parseI64 t.toList = some n := by
  simp only [parseField, bind_eq_ok, slice_eq_ok, orNone_eq_ok]
  constructor
  · rintro ⟨text, ⟨t, ht, rfl⟩, hn⟩
    exact ⟨t, ht, hn⟩
  · rintro ⟨t, ht, hn⟩
    exact ⟨t.toList, ⟨t, ht, rfl⟩, hn⟩

theorem parseField_eq_panics :
    parseField s start stop = .error .panics ↔ ¬ ∃ t, Piece s start stop t := by
  simp [parseField, bind_eq_panics, slice_eq_panics, orNone_ne_panics]

theorem piece_of_no_panic (h : parseField s start stop ≠ .error .panics) :
    ∃ t, Piece s start stop t := by
  by_contra hnone
  exact h (parseField_eq_panics.mpr hnone)

theorem parseField_drop_eq (h : k ≤ s.length) :
    parseField (s.drop k) start stop = parseField s (k + start) (k + stop) := by
  rw [parseField, slice_drop h]
  rfl

theorem parseYear_eq (s : List UInt8) : ∃ full : Int → Int, parseYear s =
    (parseField s 0 (yearDigits s) >>= fun year =>
      .ok (full year, s.drop (yearDigits s))) := by
  unfold parseYear yearDigits
  split
  · exact ⟨id, rfl⟩
  · exact ⟨fun yy => if yy < 50 then 2000 + yy else 1900 + yy, rfl⟩

theorem parseDate_eq_panics : parseDate s = .error .panics ↔ ¬ DateCuts s := by
  obtain ⟨full, hyear⟩ := parseYear_eq s
  have hdate : parseDate s = .error .panics ↔
      parseField s 0 (yearDigits s) = .error .panics ∨
        ∃ year, parseField s 0 (yearDigits s) = .ok year ∧
          (parseField (s.drop (yearDigits s)) 0 2 = .error .panics ∨
            ∃ month, parseField (s.drop (yearDigits s)) 0 2 = .ok month ∧
              parseField (s.drop (yearDigits s)) 2 4 = .error .panics) := by
    unfold parseDate
    rw [hyear, bind_assoc, bind_eq_panics]
    simp only [ok_bind, bind_eq_panics, orNone_ne_panics, and_false, exists_false, or_false]
  rw [hdate]
  constructor
  · rintro (hpanics | ⟨year, hok, hrest⟩) ⟨text, hpiece, hcuts⟩
    · exact parseField_eq_panics.mp hpanics ⟨text, hpiece⟩
    · obtain ⟨text', hpiece', hnumber⟩ := parseField_eq_ok.mp hok
      obtain rfl : text = text' := Option.some.inj (hpiece.2.symm.trans hpiece'.2)
      obtain ⟨month, hmonth, hday⟩ := hcuts (by rw [IsI64, hnumber]; rfl)
      rw [parseField_drop_eq hpiece.1, parseField_drop_eq hpiece.1] at hrest
      rcases hrest with hpanics | ⟨m, hm, hpanics⟩
      · exact parseField_eq_panics.mp hpanics ⟨month, hmonth⟩
      · obtain ⟨month', hmonth', hnumber'⟩ := parseField_eq_ok.mp hm
        obtain rfl : month = month' := Option.some.inj (hmonth.2.symm.trans hmonth'.2)
        exact parseField_eq_panics.mp hpanics (hday (by rw [IsI64, hnumber']; rfl))
  · intro hcuts
    by_contra hnot
    rw [not_or] at hnot
    obtain ⟨hfirst, hrest⟩ := hnot
    obtain ⟨text, hpiece⟩ := piece_of_no_panic hfirst
    apply hcuts
    refine ⟨text, hpiece, fun hnumber => ?_⟩
    obtain ⟨year, hyear⟩ := Option.isSome_iff_exists.mp hnumber
    have hok := parseField_eq_ok.mpr ⟨text, hpiece, hyear⟩
    rw [parseField_drop_eq hpiece.1, parseField_drop_eq hpiece.1] at hrest
    obtain ⟨month, hmonth⟩ := piece_of_no_panic fun hpanics => hrest ⟨year, hok, .inl hpanics⟩
    refine ⟨month, hmonth, fun hnumber' => ?_⟩
    obtain ⟨m, hm⟩ := Option.isSome_iff_exists.mp hnumber'
    have hok' := parseField_eq_ok.mpr ⟨month, hmonth, hm⟩
    exact piece_of_no_panic fun hpanics => hrest ⟨year, hok, .inr ⟨m, hok', hpanics⟩⟩

theorem expDays_eq_panics :
    expDays s = .error .panics ↔ (fromUtf8 s).isSome ∧ ¬ DateCuts s := by
  unfold expDays
  cases htext : fromUtf8 s with
  | none => simp [orNone, bind, Except.bind]
  | some text =>
      have hbytes : utf8 text = s := utf8_of_fromUtf8 htext
      rw [Option.map_some, orNone_some, ok_bind, hbytes, parseDate_eq_panics]
      simp

end Slices

section Found

variable {missing : Nat} {l time rest der : List UInt8}

theorem foundTimes_of_firstTime (h : FirstTime l time rest) :
    foundTimes (missing + 1) 0 l = time :: foundTimes missing 0 rest := by
  obtain ⟨clear, tag, len, rfl, hclear, htag, hlen, hne⟩ := h
  rw [foundTimes_clear hclear, foundTimes_tag htag hne, hlen, if_pos (by simp), List.take_left,
    List.drop_left]

theorem exists_firstTime (h : foundTimes (missing + 1) 0 l ≠ []) :
    ∃ time rest, FirstTime l time rest := by
  rcases clear_or_firstTag l with hclear | ⟨clear, tag, back, rfl, hclear, htag⟩
  · have hnil : foundTimes (missing + 1) 0 (l ++ []) = foundTimes (missing + 1) 0 [] :=
      foundTimes_clear hclear
    rw [List.append_nil, foundTimes_nil] at hnil
    exact absurd hnil h
  · rw [foundTimes_clear hclear] at h
    rcases back with _ | ⟨len, body⟩
    · exact absurd (foundTimes_short (by simp)) h
    · by_cases hbody : body = []
      · rw [hbody] at h
        exact absurd (foundTimes_short (by simp)) h
      · rw [foundTimes_tag htag hbody] at h
        split at h
        · rename_i hlen
          refine ⟨body.take len.toNat, body.drop len.toNat, clear, tag, len, ?_, hclear, htag, ?_,
            ?_⟩
          · rw [List.take_append_drop]
          · rw [List.length_take, Nat.min_eq_left hlen]
          · rw [List.take_append_drop]
            exact hbody
        · exact absurd rfl h

theorem secondTime_iff : (foundTimes 2 0 der)[1]? = some time ↔ SecondTime der time := by
  constructor
  · intro h
    have htimes : foundTimes 2 0 der ≠ [] := by
      intro hnil
      simp [hnil] at h
    obtain ⟨first, rest, hfirst⟩ := exists_firstTime htimes
    rw [foundTimes_of_firstTime hfirst, List.getElem?_cons_succ] at h
    have hmore : foundTimes 1 0 rest ≠ [] := by
      intro hnil
      simp [hnil] at h
    obtain ⟨second, rest', hsecond⟩ := exists_firstTime hmore
    rw [foundTimes_of_firstTime hsecond, List.getElem?_cons_zero, Option.some.injEq] at h
    rw [h] at hsecond
    exact ⟨first, rest, rest', hfirst, hsecond⟩
  · rintro ⟨first, rest, rest', hfirst, htime⟩
    rw [foundTimes_of_firstTime hfirst, foundTimes_of_firstTime htime]
    rfl

theorem daysUntilNotAfter_eq_panics {now : Int64} :
    daysUntilNotAfter der now = .error .panics ↔
      ∃ time, SecondTime der time ∧ (fromUtf8 time).isSome ∧ ¬ DateCuts time := by
  have hclock : nowDays now ≠ .error .panics := by
    unfold nowDays
    split
    · simp
    · simp
  have hlast : ∀ exp : Int, (nowDays now >>= fun today => Except.ok (exp - today)) ≠
      (.error .panics : Except Stop Int) := by
    intro exp hpanics
    rcases bind_eq_panics.mp hpanics with hnow | ⟨today, -, htoday⟩
    · exact hclock hnow
    · cases htoday
  simp only [daysUntilNotAfter, bind_eq_panics, orNone_ne_panics, orNone_eq_ok, secondTime_iff,
    expDays_eq_panics, false_or]
  constructor
  · rintro ⟨time, htime, hpanics | ⟨exp, -, hpanics⟩⟩
    · exact ⟨time, htime, hpanics⟩
    · exact absurd (bind_eq_panics.mpr hpanics) (hlast exp)
  · rintro ⟨time, htime, hpanics⟩
    exact ⟨time, htime, .inl hpanics⟩

/-- The check returns exactly if the text taken for the end of the validity period, where there
is one, can be cut like a date. -/
theorem daysUntilExpiry_returns_iff (decode : List UInt8 → Option (List UInt8)) (pem : String)
    (now : Int64) : daysUntilExpiry decode pem now ≠ .error .panics ↔
      ∀ der time, certificateBody pem.toList ≠ [] →
        decode (utf8 (String.ofList (certificateBody pem.toList))) = some der →
        SecondTime der time → (fromUtf8 time).isSome → DateCuts time := by
  have hpanics : daysUntilExpiry decode pem now = .error .panics ↔
      ∃ der time, certificateBody pem.toList ≠ [] ∧
        decode (utf8 (String.ofList (certificateBody pem.toList))) = some der ∧
        SecondTime der time ∧ (fromUtf8 time).isSome ∧ ¬ DateCuts time := by
    unfold daysUntilExpiry
    by_cases hempty : certificateBody pem.toList = []
    · simp [hempty]
    · have hsome : (certificateBody pem.toList).isEmpty = false := by simpa using hempty
      simp only [hsome, Bool.false_eq_true, if_false, bind_eq_panics, orNone_ne_panics,
        orNone_eq_ok, daysUntilNotAfter_eq_panics, false_or, ne_eq, hempty, not_false_eq_true,
        true_and, exists_and_left]
  rw [ne_eq, hpanics]
  push Not
  rfl

end Found

/-- Two empty times. -/
def emptyTimes : List UInt8 := [0x17, 0x00, 0x17, 0x00, 0x00]

theorem emptyTimes_panics : daysUntilExpiry Base64Engine.standard.decode (onePem emptyTimes) 0 =
    .error .panics := by
  rw [daysUntilExpiry_eq _ _ (firstCertificate_onePem _) (by decide), daysUntilNotAfter_eq_panics]
  have hsecond : SecondTime emptyTimes [] := secondTime_iff.mp (by decide)
  refine ⟨[], hsecond, by decide +kernel, ?_⟩
  rintro ⟨year, ⟨hlength, -⟩, -⟩
  exact absurd hlength (by decide)

end Seamless.Relay
