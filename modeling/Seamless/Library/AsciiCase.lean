import Mathlib
import Seamless.Library.Text

/-!
Texts that are equal up to the case of their ASCII letters.
-/

namespace Seamless.Library.Text

variable {s t : List Char}

def asciiLower (s : List Char) : List Char := s.map Char.toLower

def asciiUpper (s : List Char) : List Char := s.map Char.toUpper

def NoLetters (s : List Char) : Prop := ∀ c ∈ s, c.isAlpha = false

/-- The two cases of an ASCII letter are lower-cased to the same text, whatever
stands around them. -/
def CaseMap.Folds (m : CaseMap) : Prop :=
  ∀ s t, eqIgnoreAsciiCase s t = true → m.lower s = m.lower t

theorem CaseMap.ascii_folds : CaseMap.ascii.Folds := by
  intro s t h
  simpa [eqIgnoreAsciiCase, CaseMap.ascii] using h

/-- What `str::to_lowercase` does to a text that it has been applied to, and to the
white space around a text. -/
structure CaseMap.Regular (m : CaseMap) : Prop where
  idempotent : ∀ s, m.lower (m.lower s) = m.lower s
  keeps_trimmed : ∀ s, trim s = s → trim (m.lower s) = m.lower s

theorem eqIgnoreAsciiCase_symm (h : eqIgnoreAsciiCase s t = true) :
    eqIgnoreAsciiCase t s = true := by
  simp only [eqIgnoreAsciiCase, beq_iff_eq] at h ⊢
  exact h.symm

theorem length_eq_of_eqIgnoreAsciiCase (h : eqIgnoreAsciiCase s t = true) :
    s.length = t.length := by
  simp only [eqIgnoreAsciiCase, beq_iff_eq] at h
  simpa using congrArg List.length h

theorem eqIgnoreAsciiCase_lower (s : List Char) : eqIgnoreAsciiCase (asciiLower s) s = true := by
  simp [eqIgnoreAsciiCase, asciiLower]

theorem eqIgnoreAsciiCase_upper (s : List Char) : eqIgnoreAsciiCase (asciiUpper s) s = true := by
  simp [eqIgnoreAsciiCase, asciiUpper]

theorem toLower_of_isAlpha_eq_false {c : Char} (h : c.isAlpha = false) : c.toLower = c := by
  apply Char.toLower_eq_of_not_isUpper
  simp_all [Char.isAlpha]

theorem noLetters_of_fixed (hlower : asciiLower s = s) (hupper : asciiUpper s = s) :
    NoLetters s := by
  intro c hc
  have hnotUpper : c.isUpper = false := by
    rw [← hlower] at hc
    obtain ⟨d, -, rfl⟩ := List.mem_map.mp hc
    exact d.isUpper_toLower_eq_false
  have hnotLower : c.isLower = false := by
    rw [← hupper] at hc
    obtain ⟨d, -, rfl⟩ := List.mem_map.mp hc
    exact d.isLower_toUpper_eq_false
  simp [Char.isAlpha, hnotUpper, hnotLower]

theorem NoLetters.eq_of_eqIgnoreAsciiCase (hs : NoLetters s)
    (h : eqIgnoreAsciiCase s t = true) : t = s := by
  simp only [eqIgnoreAsciiCase, beq_iff_eq] at h
  induction s generalizing t with
  | nil => simpa using h.symm
  | cons c s ih =>
      cases t with
      | nil => simp at h
      | cons d t =>
          obtain ⟨hhead, htail⟩ := List.cons.inj h
          have hc : c.isAlpha = false := hs c (by simp)
          have hd : d.isAlpha = false := by
            rw [← d.isAlpha_toLower_eq_isAlpha, ← hhead, c.isAlpha_toLower_eq_isAlpha]
            exact hc
          rw [toLower_of_isAlpha_eq_false hc, toLower_of_isAlpha_eq_false hd] at hhead
          rw [ih (fun e he => hs e (by simp [he])) htail, hhead]

theorem toLower_eq_iff {c d : Char} (hd : d.isAlpha = false) : c.toLower = d ↔ c = d := by
  constructor
  · rintro rfl
    rw [Char.isAlpha_toLower_eq_isAlpha] at hd
    exact (toLower_of_isAlpha_eq_false hd).symm
  · rintro rfl
    exact toLower_of_isAlpha_eq_false hd

theorem isWhitespace_of_isAlpha {c : Char} (h : c.isAlpha = true) : isWhitespace c = false := by
  have hcode : 65 ≤ c.toNat ∧ c.toNat ≤ 122 := by
    simp only [Char.isAlpha, Char.isUpper, Char.isLower, Bool.or_eq_true, Bool.and_eq_true,
      decide_eq_true_eq, ge_iff_le, UInt32.le_iff_toNat_le] at h
    change 65 ≤ c.val.toNat ∧ c.val.toNat ≤ 122
    rcases h with ⟨hlow, hhigh⟩ | ⟨hlow, hhigh⟩
    · change 65 ≤ c.val.toNat at hlow
      change c.val.toNat ≤ 90 at hhigh
      omega
    · change 97 ≤ c.val.toNat at hlow
      change c.val.toNat ≤ 122 at hhigh
      omega
  simp only [isWhitespace, Bool.or_eq_false_iff, Bool.and_eq_false_iff, decide_eq_false_iff_not,
    beq_eq_false_iff_ne]
  omega

theorem isWhitespace_toLower (c : Char) : isWhitespace c.toLower = isWhitespace c := by
  cases halpha : c.isAlpha with
  | true =>
      have hlower : c.toLower.isAlpha = true := by rw [c.isAlpha_toLower_eq_isAlpha, halpha]
      rw [isWhitespace_of_isAlpha halpha, isWhitespace_of_isAlpha hlower]
  | false => rw [toLower_of_isAlpha_eq_false halpha]

theorem CaseMap.ascii_regular : CaseMap.ascii.Regular where
  idempotent := by
    intro s
    simp [CaseMap.ascii]
  keeps_trimmed := by
    intro s h
    rw [trim_eq_self_iff] at h ⊢
    simpa [CaseMap.ascii, isWhitespace_toLower] using h

theorem splitAt_lower {sep : Char} (hsep : sep.isAlpha = false) (s : List Char) :
    (splitAt sep (asciiLower s)).1 = asciiLower (splitAt sep s).1 := by
  induction s with
  | nil => rfl
  | cons c s ih =>
      simp only [asciiLower, List.map_cons, splitAt, toLower_eq_iff hsep] at ih ⊢
      split
      · rfl
      · simp [ih]

theorem eqIgnoreAsciiCase_splitAt {sep : Char} (hsep : sep.isAlpha = false)
    (h : eqIgnoreAsciiCase s t = true) :
    eqIgnoreAsciiCase (splitAt sep s).1 (splitAt sep t).1 = true := by
  simp only [eqIgnoreAsciiCase, beq_iff_eq] at h ⊢
  have hboth := congrArg (fun l => (splitAt sep l).1) h
  exact (splitAt_lower hsep s).symm.trans (hboth.trans (splitAt_lower hsep t))

end Seamless.Library.Text
