import Mathlib.Algebra.Group.Int.Defs
import Mathlib.Data.Char
import Mathlib.Data.List.Basic
import Mathlib.Data.List.TakeWhile
import Mathlib.Data.UInt

/-!
The string and slice functions of the Rust standard library that the programs
use, on lists. Lower-casing beyond ASCII follows the Unicode tables, which
are not reproduced here: a `CaseMap` is any function that agrees with them on
ASCII text.
-/

namespace Seamless.Library.Text

/-- Characters with the Unicode property `White_Space`. -/
def isWhitespace (c : Char) : Bool :=
  let n := c.toNat
  (9 ≤ n && n ≤ 13) || n == 0x20 || n == 0x85 || n == 0xa0 || n == 0x1680 ||
    (0x2000 ≤ n && n ≤ 0x200a) || n == 0x2028 || n == 0x2029 || n == 0x202f ||
    n == 0x205f || n == 0x3000

def trim (s : List Char) : List Char :=
  ((s.dropWhile isWhitespace).reverse.dropWhile isWhitespace).reverse

def eqIgnoreAsciiCase (s t : List Char) : Bool :=
  s.map Char.toLower == t.map Char.toLower

def splitCrlf : List Char → List (List Char)
  | [] => [[]]
  | '\r' :: '\n' :: rest => [] :: splitCrlf rest
  | c :: rest =>
      match splitCrlf rest with
      | [] => [[c]]
      | line :: lines => (c :: line) :: lines

/-- `str::lines`: a line ends at `\n` or `\r\n`, the last one also at the end. -/
def lines : List Char → List (List Char)
  | [] => []
  | '\n' :: rest => [] :: lines rest
  | '\r' :: '\n' :: rest => [] :: lines rest
  | c :: rest =>
      match lines rest with
      | [] => [[c]]
      | line :: more => (c :: line) :: more

/-- The text before the first `sep`, and the text behind it if there is one. -/
def splitAt (sep : Char) : List Char → List Char × Option (List Char)
  | [] => ([], none)
  | c :: rest =>
      if c = sep then ([], some rest)
      else ((c :: (splitAt sep rest).1), (splitAt sep rest).2)

def stripSuffix (suffix s : List Char) : Option (List Char) :=
  if suffix.isSuffixOf s then some (s.take (s.length - suffix.length)) else none

def stripPrefix (front s : List Char) : Option (List Char) :=
  if front.isPrefixOf s then some (s.drop front.length) else none

/-- `str::trim_start_matches`: the pattern is taken off as often as it occurs. -/
def trimStartMatches (front s : List Char) : List Char := go s.length s
where
  go : Nat → List Char → List Char
    | 0, s => s
    | n + 1, s =>
        match stripPrefix front s with
        | some rest => go n rest
        | none => s

def digitsValue (s : List Char) : Option Nat :=
  s.foldl (fun value c => value.bind fun n =>
    if c.isDigit then some (10 * n + (c.toNat - '0'.toNat)) else none) (some 0)

/-- `str::parse::<u64>`: digits, possibly behind a plus sign. -/
def parseU64 (s : List Char) : Option UInt64 :=
  let digits := (stripPrefix ['+'] s).getD s
  if digits.isEmpty then none
  else
    match digitsValue digits with
    | some n => if n < 2 ^ 64 then some (UInt64.ofNat n) else none
    | none => none

/-- `str::parse::<u32>`. -/
def parseU32 (s : List Char) : Option UInt32 :=
  (parseU64 s).bind fun n => if n.toNat < 2 ^ 32 then some (UInt32.ofNat n.toNat) else none

/-- `str::parse::<i64>`: digits, possibly behind a sign. -/
def parseI64 (s : List Char) : Option Int :=
  let (sign, digits) : Int × List Char :=
    match s with
    | '-' :: digits => (-1, digits)
    | '+' :: digits => (1, digits)
    | digits => (1, digits)
  if digits.isEmpty then none
  else (digitsValue digits).bind fun n =>
    if -2 ^ 63 ≤ sign * n ∧ sign * n < 2 ^ 63 then some (sign * n) else none

/-- Decimal digits with the value `n`, possibly behind a plus sign. -/
def IsNumeral (s : List Char) (n : Nat) : Prop :=
  ∃ digits, (s = digits ∨ s = '+' :: digits) ∧ digits ≠ [] ∧
    (∀ c ∈ digits, c.isDigit = true) ∧ Nat.ofDigitChars 10 digits 0 = n

/-- `windows(w.len()).position(..)` for a window equal to `w`. -/
def windowPosition {α : Type*} [BEq α] (w : List α) : List α → Option Nat
  | [] => none
  | a :: l =>
      if w.isPrefixOf (a :: l) then some 0 else (windowPosition w l).map (· + 1)

def containsChar (c : Char) (s : List Char) : Bool := s.any (· == c)

def isAscii (s : List Char) : Prop := ∀ c ∈ s, c.toNat < 128

/-- `str::to_lowercase`. -/
structure CaseMap where
  lower : List Char → List Char
  lower_ascii : ∀ s, isAscii s → lower s = s.map Char.toLower

/-- The case map that leaves everything outside ASCII alone. -/
def CaseMap.ascii : CaseMap where
  lower := List.map Char.toLower
  lower_ascii := fun _ _ => rfl

def CaseMap.lowerString (m : CaseMap) (s : String) : String :=
  String.ofList (m.lower s.toList)

theorem splitCrlf_ne_nil (s : List Char) : splitCrlf s ≠ [] := by
  fun_cases splitCrlf s <;> simp_all

theorem splitCrlf_append (s t : List Char) :
    splitCrlf (s ++ '\r' :: '\n' :: t) = splitCrlf s ++ splitCrlf t := by
  fun_induction splitCrlf s with
  | case1 => simp [splitCrlf]
  | case2 rest ih => simp [splitCrlf, ih]
  | case3 c rest hbreak hnil => exact absurd hnil (splitCrlf_ne_nil rest)
  | case4 c rest hbreak line lines hrest ih =>
      rw [hrest] at ih
      rw [List.cons_append, splitCrlf]
      · simp [ih]
      · intro rest' hc hcrlf
        cases rest with
        | nil => simp at hcrlf
        | cons d rest =>
            simp only [List.cons_append, List.cons.injEq] at hcrlf
            exact hbreak rest hc (by simp [hcrlf.1])

theorem windowPosition_spec {α : Type*} [BEq α] [LawfulBEq α] {w l : List α} {i : Nat}
    (h : windowPosition w l = some i) : w <+: l.drop i := by
  induction l generalizing i with
  | nil => simp [windowPosition] at h
  | cons a l ih =>
      rw [windowPosition] at h
      split at h
      · rename_i hfront
        obtain rfl : 0 = i := by simpa using h
        simpa using hfront
      · obtain ⟨j, hj, rfl⟩ := Option.map_eq_some_iff.mp h
        simpa using ih hj

theorem windowPosition_length {α : Type*} [BEq α] [LawfulBEq α] {w l : List α} {i : Nat}
    (h : windowPosition w l = some i) : i + w.length ≤ l.length ∨ w = [] := by
  have hlength := (windowPosition_spec h).length_le
  rw [List.length_drop] at hlength
  rcases Nat.eq_zero_or_pos w.length with hzero | hpos
  · exact .inr (List.eq_nil_of_length_eq_zero hzero)
  · omega

theorem windowPosition_append {α : Type*} [BEq α] [LawfulBEq α] {w l : List α} {i : Nat}
    (hw : w ≠ []) (h : windowPosition w l = some i) (more : List α) :
    windowPosition w (l ++ more) = some i := by
  induction l generalizing i with
  | nil => simp [windowPosition] at h
  | cons a l ih =>
      have hfits : i + w.length ≤ (a :: l).length :=
        (windowPosition_length h).resolve_right hw
      rw [windowPosition] at h
      rw [List.cons_append, windowPosition, ← List.cons_append]
      split at h
      · rename_i hfront
        have hfront' : w <+: a :: l := by simpa using hfront
        rw [if_pos (by simpa using hfront'.trans (List.prefix_append _ _))]
        exact h
      · rename_i hfront
        have hnot : ¬ w <+: (a :: l) ++ more := by
          intro hgrown
          apply hfront
          have hshort : w <+: a :: l :=
            List.prefix_of_prefix_length_le hgrown (List.prefix_append _ _) (by omega)
          simpa using hshort
        rw [if_neg (by simpa using hnot)]
        obtain ⟨j, hj, rfl⟩ := Option.map_eq_some_iff.mp h
        rw [ih hj]
        rfl

theorem windowPosition_eq_none_iff {α : Type*} [BEq α] [LawfulBEq α] {w l : List α}
    (hw : w ≠ []) : windowPosition w l = none ↔ ¬ w <:+: l := by
  induction l with
  | nil => simp [windowPosition, hw]
  | cons a l ih =>
      rw [windowPosition, List.infix_cons_iff, not_or]
      split
      · rename_i hfront
        have hfront' : w <+: a :: l := by simpa using hfront
        simp [hfront']
      · rename_i hfront
        have hfront' : ¬ w <+: a :: l := by simpa using hfront
        simp [hfront', ih]

theorem lt_of_windowPosition_append {α : Type*} [BEq α] [LawfulBEq α] {w l more : List α} {i : Nat}
    (hw : w ≠ []) (hnone : windowPosition w l = none)
    (h : windowPosition w (l ++ more) = some i) : l.length < i + w.length := by
  induction l generalizing i with
  | nil =>
      have hpos := List.length_pos_of_ne_nil hw
      simp only [List.length_nil]
      omega
  | cons a l ih =>
      rw [windowPosition] at hnone
      rw [List.cons_append, windowPosition, ← List.cons_append] at h
      split at hnone
      · cases hnone
      · rename_i hfront
        split at h
        · rename_i hgrown
          obtain rfl : 0 = i := by simpa using h
          by_contra hle
          apply hfront
          have hshort : w <+: a :: l :=
            List.prefix_of_prefix_length_le (by simpa using hgrown) (List.prefix_append _ _)
              (by omega)
          simpa using hshort
        · obtain ⟨j, hj, rfl⟩ := Option.map_eq_some_iff.mp h
          have hlt := ih (by simpa using hnone) hj
          rw [List.length_cons]
          omega

theorem dropWhile_eq_self_iff {α : Type*} {p : α → Bool} {l : List α} :
    l.dropWhile p = l ↔ ∀ a ∈ l.head?, p a = false := by
  cases l with
  | nil => simp
  | cons a l =>
      constructor
      · intro h b hb
        obtain rfl : a = b := by simpa using hb
        by_contra hp
        rw [List.dropWhile_cons_of_pos (by simpa using hp)] at h
        have hlength := (List.dropWhile_sublist p (l := l)).length_le
        rw [h, List.length_cons] at hlength
        omega
      · intro h
        exact List.dropWhile_cons_of_neg (by simpa using h a rfl)

theorem isWhitespace_of_bounds {c : Char} (hge : 46 ≤ c.toNat) (hle : c.toNat ≤ 102) :
    isWhitespace c = false := by
  rw [← Bool.not_eq_true]
  intro hwhite
  unfold isWhitespace at hwhite
  simp only [Bool.or_eq_true, Bool.and_eq_true, decide_eq_true_eq, beq_iff_eq] at hwhite
  omega

theorem trim_between {front s back : List Char} (hfront : ∀ c ∈ front, isWhitespace c = true)
    (hs : ∀ c ∈ s, isWhitespace c = false) (hback : ∀ c ∈ back, isWhitespace c = true) :
    trim (front ++ s ++ back) = s := by
  have hstart : ((front ++ s ++ back).dropWhile isWhitespace).reverse.dropWhile isWhitespace =
      (s ++ back).reverse.dropWhile isWhitespace := by
    rw [List.append_assoc, List.dropWhile_append_of_pos hfront]
    cases s with
    | nil =>
        have hreverse : ∀ c ∈ back.reverse, isWhitespace c = true := by simpa using hback
        rw [List.nil_append, List.dropWhile_eq_nil_iff.mpr hback,
          List.dropWhile_eq_nil_iff.mpr hreverse]
        rfl
    | cons c s =>
        rw [List.cons_append, List.dropWhile_cons_of_neg]
        simp [hs c (by simp)]
  rw [trim, hstart, List.reverse_append, List.dropWhile_append_of_pos (by simpa using hback)]
  rw [dropWhile_eq_self_iff.mpr, List.reverse_reverse]
  intro c hc
  exact hs c (by simpa using List.mem_of_mem_head? hc)

theorem splitAt_append {sep : Char} {s : List Char} (h : sep ∉ s) (t : List Char) :
    splitAt sep (s ++ t) = (s ++ (splitAt sep t).1, (splitAt sep t).2) := by
  induction s with
  | nil => rfl
  | cons c s ih =>
      rw [List.mem_cons, not_or] at h
      simp [splitAt, Ne.symm h.1, ih h.2]

theorem splitAt_eq_some_iff {sep : Char} {s front rest : List Char} :
    splitAt sep s = (front, some rest) ↔ s = front ++ sep :: rest ∧ sep ∉ front := by
  induction s generalizing front with
  | nil => simp [splitAt]
  | cons c s ih =>
      simp only [splitAt]
      by_cases hc : c = sep
      · subst hc
        cases front with
        | nil => simp
        | cons d front =>
            constructor
            · simp
            · rintro ⟨hsplit, hnot⟩
              simp only [List.cons_append, List.cons.injEq] at hsplit
              simp [hsplit.1] at hnot
      · rw [if_neg hc, Prod.mk.injEq]
        cases front with
        | nil => simp [hc]
        | cons d front =>
            have hrest := @ih front
            rw [Prod.ext_iff] at hrest
            simp only [List.cons.injEq, List.cons_append, List.mem_cons, not_or, and_assoc]
            rw [hrest]
            constructor
            · rintro ⟨rfl, rfl, hnot⟩
              exact ⟨rfl, rfl, Ne.symm hc, hnot⟩
            · rintro ⟨rfl, rfl, -, hnot⟩
              exact ⟨rfl, rfl, hnot⟩

theorem notMem_splitAt_fst (sep : Char) (s : List Char) : sep ∉ (splitAt sep s).1 := by
  induction s with
  | nil => simp [splitAt]
  | cons c s ih =>
      rw [splitAt]
      split
      · simp
      · rename_i hne
        simp [Ne.symm hne, ih]

theorem splitAt_fst_prefix (sep : Char) (s : List Char) : (splitAt sep s).1 <+: s := by
  induction s with
  | nil => exact List.prefix_rfl
  | cons c s ih =>
      rw [splitAt]
      split
      · exact List.nil_prefix
      · exact List.cons_prefix_cons.mpr ⟨rfl, ih⟩

theorem stripSuffix_eq_some {suffix s rest : List Char} :
    stripSuffix suffix s = some rest ↔ s = rest ++ suffix := by
  unfold stripSuffix
  constructor
  · intro h
    split at h
    · rename_i hsuffix
      obtain ⟨front, rfl⟩ := List.isSuffixOf_iff_suffix.mp hsuffix
      simp at h
      rw [h]
    · cases h
  · rintro rfl
    rw [if_pos (by simp)]
    simp

theorem head_dropWhile {α : Type*} {p : α → Bool} {l : List α} :
    ∀ a ∈ (l.dropWhile p).head?, p a = false := by
  intro a ha
  have h := List.head?_dropWhile_not p l
  rw [Option.mem_def.mp ha] at h
  simpa using h

theorem trim_eq_self_iff {s : List Char} : trim s = s ↔
    (∀ c ∈ s.head?, isWhitespace c = false) ∧ ∀ c ∈ s.getLast?, isWhitespace c = false := by
  constructor
  · intro h
    have hstart : s.dropWhile isWhitespace = s := by
      apply List.Sublist.eq_of_length_le (List.dropWhile_sublist _)
      have hlength := (List.dropWhile_sublist isWhitespace
        (l := (s.dropWhile isWhitespace).reverse)).length_le
      rw [← List.length_reverse, ← trim, h, List.length_reverse] at hlength
      exact hlength
    refine ⟨dropWhile_eq_self_iff.mp hstart, ?_⟩
    rw [trim, hstart, List.reverse_eq_iff] at h
    simpa using dropWhile_eq_self_iff.mp h
  · rintro ⟨hstart, hend⟩
    have hrev : s.reverse.dropWhile isWhitespace = s.reverse :=
      dropWhile_eq_self_iff.mpr (by simpa using hend)
    rw [trim, dropWhile_eq_self_iff.mpr hstart, hrev, List.reverse_reverse]

theorem trim_trim (s : List Char) : trim (trim s) = trim s := by
  apply trim_eq_self_iff.mpr
  constructor
  · intro c hc
    obtain ⟨t, ht⟩ : trim s <+: s.dropWhile isWhitespace := by
      rw [← List.reverse_suffix, trim, List.reverse_reverse]
      exact List.dropWhile_suffix _
    apply head_dropWhile (l := s) c
    rw [Option.mem_def] at hc ⊢
    rw [← ht, List.head?_append, hc, Option.some_or]
  · intro c hc
    rw [trim, List.getLast?_reverse] at hc
    exact head_dropWhile c hc

theorem foldl_digits_eq_some_iff {ds : List Char} {n v : Nat} :
    ds.foldl (fun value c => value.bind fun n =>
        if c.isDigit then some (10 * n + (c.toNat - '0'.toNat)) else none) (some n) = some v ↔
      (∀ c ∈ ds, c.isDigit = true) ∧ Nat.ofDigitChars 10 ds n = v := by
  induction ds generalizing n with
  | nil => simp
  | cons c ds ih =>
      rw [List.foldl_cons, Option.bind_some]
      by_cases hc : c.isDigit = true
      · rw [if_pos hc, ih, Nat.ofDigitChars_cons]
        simp [hc]
      · have hnone : ∀ l : List Char, l.foldl (fun value c => value.bind fun n =>
            if c.isDigit then some (10 * n + (c.toNat - '0'.toNat)) else none)
              (none : Option Nat) = none := by
          intro l
          induction l with
          | nil => rfl
          | cons d l ih => simpa using ih
        rw [if_neg hc, hnone]
        simp [hc]

theorem digitsValue_eq_some_iff {ds : List Char} {v : Nat} :
    digitsValue ds = some v ↔
      (∀ c ∈ ds, c.isDigit = true) ∧ Nat.ofDigitChars 10 ds 0 = v :=
  foldl_digits_eq_some_iff

theorem parseI64_of_digits {ds : List Char} {n : Nat} (hne : ds ≠ [])
    (hvalue : digitsValue ds = some n) (hn : n < 2 ^ 63) : parseI64 ds = some (n : Int) := by
  obtain ⟨hdigits, -⟩ := digitsValue_eq_some_iff.mp hvalue
  have hsign : ∀ c rest, ds = c :: rest → c ≠ '-' ∧ c ≠ '+' := by
    rintro c rest rfl
    have hdigit := hdigits c List.mem_cons_self
    constructor
    · rintro rfl
      exact absurd hdigit (by decide)
    · rintro rfl
      exact absurd hdigit (by decide)
  unfold parseI64
  split
  rename_i sign digits hparts
  split at hparts
  · exact absurd rfl (hsign _ _ rfl).1
  · exact absurd rfl (hsign _ _ rfl).2
  · obtain ⟨rfl, rfl⟩ := Prod.mk.inj hparts
    rw [if_neg (by simpa using hne), hvalue, Option.bind_some, one_mul, if_pos (by omega)]

theorem stripPlus (s : List Char) :
    (∃ rest, s = '+' :: rest ∧ (stripPrefix ['+'] s).getD s = rest) ∨
      (s.head? ≠ some '+' ∧ (stripPrefix ['+'] s).getD s = s) := by
  cases s with
  | nil => exact .inr ⟨by simp, rfl⟩
  | cons c s =>
      by_cases hc : c = '+'
      · subst hc
        exact .inl ⟨s, rfl, by simp [stripPrefix]⟩
      · exact .inr ⟨by simpa using hc, by simp [stripPrefix, Ne.symm hc]⟩

theorem isNumeral_iff {s : List Char} {n : Nat} :
    IsNumeral s n ↔ (stripPrefix ['+'] s).getD s ≠ [] ∧
      (∀ c ∈ (stripPrefix ['+'] s).getD s, c.isDigit = true) ∧
      Nat.ofDigitChars 10 ((stripPrefix ['+'] s).getD s) 0 = n := by
  rcases stripPlus s with ⟨rest, rfl, hdigits⟩ | ⟨hhead, hdigits⟩
  · rw [hdigits]
    constructor
    · rintro ⟨digits, rfl | hplus, hne, hall, hvalue⟩
      · have hplus := hall '+' (by simp)
        exact absurd hplus (by decide)
      · obtain rfl : rest = digits := by simpa using hplus
        exact ⟨hne, hall, hvalue⟩
    · intro h
      exact ⟨rest, .inr rfl, h⟩
  · rw [hdigits]
    constructor
    · rintro ⟨digits, rfl | rfl, hne, hall, hvalue⟩
      · exact ⟨hne, hall, hvalue⟩
      · simp at hhead
    · intro h
      exact ⟨s, .inl rfl, h⟩

theorem parseU64_eq_some_iff {s : List Char} {n : UInt64} :
    parseU64 s = some n ↔ IsNumeral s n.toNat := by
  rw [isNumeral_iff]
  unfold parseU64
  dsimp only
  split
  · rename_i hempty
    simp only [List.isEmpty_iff] at hempty
    simp [hempty]
  · rename_i hne
    simp only [List.isEmpty_iff] at hne
    constructor
    · intro h
      split at h
      · rename_i v hvalue
        split at h
        · rename_i hlt
          obtain rfl := Option.some.inj h
          rw [UInt64.toNat_ofNat_of_lt' hlt]
          exact ⟨hne, digitsValue_eq_some_iff.mp hvalue⟩
        · cases h
      · cases h
    · rintro ⟨-, hdigits⟩
      rw [digitsValue_eq_some_iff.mpr hdigits]
      dsimp only
      rw [if_pos n.toNat_lt, UInt64.ofNat_toNat]

theorem parseU32_eq_some_iff {s : List Char} {n : UInt32} :
    parseU32 s = some n ↔ IsNumeral s n.toNat := by
  unfold parseU32
  simp only [Option.bind_eq_some_iff, parseU64_eq_some_iff]
  constructor
  · rintro ⟨m, hm, h⟩
    split at h
    · rename_i hlt
      obtain rfl := Option.some.inj h
      rwa [UInt32.toNat_ofNat_of_lt' hlt]
    · cases h
  · intro h
    have hfits : n.toNat < UInt64.size := n.toNat_lt.trans_le (by decide)
    refine ⟨UInt64.ofNat n.toNat, ?_, ?_⟩
    · rwa [UInt64.toNat_ofNat_of_lt' hfits]
    · rw [UInt64.toNat_ofNat_of_lt' hfits, if_pos n.toNat_lt, UInt32.ofNat_toNat]

theorem splitCrlf_line {line : List Char} (h : ¬ ['\r', '\n'] <:+: line) :
    splitCrlf line = [line] := by
  fun_induction splitCrlf line with
  | case1 => rfl
  | case2 rest => exact absurd (List.IsPrefix.isInfix ⟨rest, rfl⟩) h
  | case3 c rest hbreak hnil => exact absurd hnil (splitCrlf_ne_nil rest)
  | case4 c rest hbreak line lines hrest ih =>
      have hrest' : ¬ ['\r', '\n'] <:+: rest := by
        intro hin
        exact h (hin.trans (List.suffix_cons c rest).isInfix)
      rw [ih hrest'] at hrest
      cases hrest
      rfl

theorem splitCrlf_lines {lines : List (List Char)}
    (h : ∀ line ∈ lines, ¬ ['\r', '\n'] <:+: line) (t : List Char) :
    splitCrlf (lines.flatMap (· ++ ['\r', '\n']) ++ t) = lines ++ splitCrlf t := by
  induction lines with
  | nil => rfl
  | cons line lines ih =>
      have hrest : (line :: lines).flatMap (· ++ ['\r', '\n']) ++ t =
          line ++ '\r' :: '\n' :: (lines.flatMap (· ++ ['\r', '\n']) ++ t) := by
        simp
      rw [hrest, splitCrlf_append, splitCrlf_line (h line (by simp)),
        ih fun l hl => h l (by simp [hl])]
      rfl

theorem eq_append_of_stripPrefix {front s rest : List Char}
    (h : stripPrefix front s = some rest) : s = front ++ rest := by
  unfold stripPrefix at h
  split at h
  · rename_i hfront
    obtain ⟨tail, rfl⟩ := List.isPrefixOf_iff_prefix.mp hfront
    obtain rfl : tail = rest := by simpa using h
    rfl
  · cases h

theorem trimStartMatches_of_none {front s : List Char} (h : stripPrefix front s = none) :
    trimStartMatches front s = s := by
  unfold trimStartMatches
  cases s.length with
  | zero => rfl
  | succ n => simp [trimStartMatches.go, h]

theorem trimStartMatches_once {front s : List Char} (hne : front ≠ [])
    (h : stripPrefix front s = none) : trimStartMatches front (front ++ s) = s := by
  obtain ⟨n, hn⟩ : ∃ n, (front ++ s).length = n + 1 := by
    apply Nat.exists_eq_succ_of_ne_zero
    simp [hne]
  have hstrip : stripPrefix front (front ++ s) = some s := by
    simp [stripPrefix]
  rw [trimStartMatches, hn, trimStartMatches.go, hstrip]
  dsimp only
  cases n with
  | zero => rfl
  | succ n => simp [trimStartMatches.go, h]

theorem newline_notMem_of_mem_lines {s line : List Char} (h : line ∈ lines s) : '\n' ∉ line := by
  fun_induction lines s generalizing line with
  | case1 => cases h
  | case2 rest ih =>
      rcases List.mem_cons.mp h with rfl | hrest
      · simp
      · exact ih hrest
  | case3 rest ih =>
      rcases List.mem_cons.mp h with rfl | hrest
      · simp
      · exact ih hrest
  | case4 c rest hnewline hreturn hnil ih =>
      obtain rfl := List.mem_singleton.mp h
      simpa using Ne.symm hnewline
  | case5 c rest hnewline hreturn first more hrest ih =>
      rw [hrest] at ih
      rcases List.mem_cons.mp h with rfl | hmore
      · have hfirst : '\n' ∉ first := ih List.mem_cons_self
        simpa [Ne.symm hnewline] using hfirst
      · exact ih (List.mem_cons_of_mem _ hmore)

theorem lines_append_crlf {line : List Char} (h : '\n' ∉ line) (rest : List Char) :
    lines (line ++ '\r' :: '\n' :: rest) = line :: lines rest := by
  induction line with
  | nil => rw [List.nil_append, lines]
  | cons c line ih =>
      rw [List.mem_cons, not_or] at h
      rw [List.cons_append, lines, ih h.2]
      · intro hc
        exact h.1 hc.symm
      · rintro rest' rfl hnext
        cases line with
        | nil => simp at hnext
        | cons d line =>
            rw [List.cons_append, List.cons.injEq] at hnext
            exact h.2 (by simp [hnext.1])

theorem lines_append_newline {line : List Char} (h : '\n' ∉ line)
    (hreturn : line.getLast? ≠ some '\r') (rest : List Char) :
    lines (line ++ '\n' :: rest) = line :: lines rest := by
  induction line with
  | nil => rw [List.nil_append, lines]
  | cons c line ih =>
      rw [List.mem_cons, not_or] at h
      have hlast : line.getLast? ≠ some '\r' := by
        intro hlast
        rw [List.getLast?_cons, hlast] at hreturn
        exact hreturn rfl
      rw [List.cons_append, lines, ih h.2 hlast]
      · intro hc
        exact h.1 hc.symm
      · rintro rest' rfl hnext
        cases line with
        | nil => exact hreturn rfl
        | cons d line =>
            rw [List.cons_append, List.cons.injEq] at hnext
            exact h.2 (by simp [hnext.1])

theorem lines_of_newline_notMem {line : List Char} (h : '\n' ∉ line) (hne : line ≠ []) :
    lines line = [line] := by
  induction line with
  | nil => exact absurd rfl hne
  | cons c line ih =>
      rw [List.mem_cons, not_or] at h
      have hrest : lines line = [] ∧ line = [] ∨ lines line = [line] := by
        cases line with
        | nil => exact .inl ⟨rfl, rfl⟩
        | cons d line => exact .inr (ih h.2 (List.cons_ne_nil _ _))
      rw [lines]
      · rcases hrest with ⟨hnil, rfl⟩ | hline
        · rw [hnil]
        · rw [hline]
      · intro hc
        exact h.1 hc.symm
      · rintro rest rfl hnext
        exact h.2 (by simp [hnext])

theorem exists_lines {ls : List (List Char)} (h : ∀ line ∈ ls, '\n' ∉ line) :
    ∃ s, lines s = ls := by
  induction ls with
  | nil => exact ⟨[], rfl⟩
  | cons line ls ih =>
      rw [List.forall_mem_cons] at h
      obtain ⟨s, rfl⟩ := ih h.2
      exact ⟨line ++ '\r' :: '\n' :: s, lines_append_crlf h.1 s⟩

end Seamless.Library.Text
