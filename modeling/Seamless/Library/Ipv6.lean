import Seamless.Library.NetAddr
import Seamless.Library.Text

/-!
IPv6 addresses: the two forms that hold an IPv4 address, and what the texts look like that
the standard library reads as an address.
-/

namespace Seamless.Library.NetAddr

open Seamless.Library.Text

/-- `::ffff:a.b.c.d`. -/
def Ipv4Addr.toIpv6Mapped (ip : Ipv4Addr) : Ipv6Addr where
  segments := [0, 0, 0, 0, 0, 0xffff] ++ ip.groups
  eight := by simp [Ipv4Addr.groups]

/-- `::a.b.c.d`. -/
def Ipv4Addr.toIpv6Compatible (ip : Ipv4Addr) : Ipv6Addr where
  segments := [0, 0, 0, 0, 0, 0] ++ ip.groups
  eight := by simp [Ipv4Addr.groups]

/-- `str::parse::<Ipv6Addr>`. -/
def parseIpv6Addr (s : List Char) : Option Ipv6Addr :=
  match readIpv6Addr s with
  | some (ip, []) => some ip
  | _ => none

/-- The characters of IPv6 texts. -/
def isLiteralChar (c : Char) : Bool := isAddressChar c || ('A' ≤ c && c ≤ 'F')

section Embedded

variable {v : Ipv6Addr} {ip : Ipv4Addr}

theorem octets_group (hi lo : UInt8) :
    octets (UInt16.ofNat (256 * hi.toNat + lo.toNat)) = (hi, lo) := by
  have hhi := hi.toNat_lt
  have hlo := lo.toNat_lt
  have hvalue : (UInt16.ofNat (256 * hi.toNat + lo.toNat)).toNat = 256 * hi.toNat + lo.toNat :=
    UInt16.toNat_ofNat_of_lt' (by simp only [UInt16.size]; omega)
  have hhigh : (256 * hi.toNat + lo.toNat) / 256 = hi.toNat := by omega
  have hlow : (256 * hi.toNat + lo.toNat) % 256 = lo.toNat := by omega
  rw [octets, hvalue, hhigh, hlow, UInt8.ofNat_toNat, UInt8.ofNat_toNat]

theorem group_octets (segment : UInt16) :
    UInt16.ofNat (256 * (octets segment).1.toNat + (octets segment).2.toNat) = segment := by
  have hlt := segment.toNat_lt
  have hhigh : (UInt8.ofNat (segment.toNat / 256)).toNat = segment.toNat / 256 :=
    UInt8.toNat_ofNat_of_lt' (by simp only [UInt8.size]; omega)
  have hlow : (UInt8.ofNat (segment.toNat % 256)).toNat = segment.toNat % 256 :=
    UInt8.toNat_ofNat_of_lt' (by simp only [UInt8.size]; omega)
  rw [octets, hhigh, hlow, Nat.div_add_mod, UInt16.ofNat_toNat]

theorem groups_eq_iff {ab cd : UInt16} :
    (⟨(octets ab).1, (octets ab).2, (octets cd).1, (octets cd).2⟩ : Ipv4Addr) = ip ↔
      [ab, cd] = ip.groups := by
  constructor
  · rintro rfl
    rw [Ipv4Addr.groups, group_octets, group_octets]
  · intro h
    rw [Ipv4Addr.groups, List.cons.injEq, List.cons.injEq] at h
    obtain ⟨rfl, rfl, -⟩ := h
    rw [octets_group, octets_group]

theorem Ipv6Addr.eq_iff {v w : Ipv6Addr} : v = w ↔ v.segments = w.segments := by
  cases v
  cases w
  rw [mk.injEq]

theorem segments_toIpv6Mapped (ip : Ipv4Addr) :
    ip.toIpv6Mapped.segments = [0, 0, 0, 0, 0, 0xffff] ++ ip.groups := rfl

theorem segments_toIpv6Compatible (ip : Ipv4Addr) :
    ip.toIpv6Compatible.segments = [0, 0, 0, 0, 0, 0] ++ ip.groups := rfl

theorem toIpv4_eq_some_iff :
    v.toIpv4 = some ip ↔ v = ip.toIpv6Mapped ∨ v = ip.toIpv6Compatible := by
  rw [Ipv6Addr.eq_iff, Ipv6Addr.eq_iff, segments_toIpv6Mapped, segments_toIpv6Compatible]
  unfold Ipv6Addr.toIpv4
  constructor
  · intro h
    split at h
    · rename_i mark ab cd hsegments
      obtain ⟨hmark, haddress⟩ := Option.ite_none_right_eq_some.mp h
      rw [hsegments, ← groups_eq_iff.mp (Option.some.inj haddress)]
      rcases hmark with rfl | rfl
      · exact .inr rfl
      · exact .inl rfl
    · cases h
  · obtain ⟨ab, cd, hgroups⟩ : ∃ ab cd, ip.groups = [ab, cd] := ⟨_, _, rfl⟩
    rw [hgroups]
    rintro (h | h)
    · rw [h]
      exact congrArg some (groups_eq_iff.mpr hgroups.symm)
    · rw [h]
      exact congrArg some (groups_eq_iff.mpr hgroups.symm)

theorem toIpv6Mapped_ne_compatible (ip ip' : Ipv4Addr) :
    ip.toIpv6Mapped ≠ ip'.toIpv6Compatible := by
  intro h
  rw [Ipv6Addr.eq_iff, segments_toIpv6Mapped, segments_toIpv6Compatible] at h
  have hmark := congrArg (fun segments => segments[5]?) h
  exact absurd hmark (by simp [Ipv4Addr.groups])

end Embedded

theorem isWhitespace_of_isAddressChar {c : Char} (h : isAddressChar c = true) :
    isWhitespace c = false := by
  obtain ⟨hge, hle⟩ := isAddressChar_bounds h
  exact isWhitespace_of_bounds hge hle

theorem isNumeral_decimal (n : Nat) : IsNumeral (decimal n) n :=
  ⟨decimal n, .inl rfl, by simp [decimal], fun _ hc => isDigit_of_mem_decimal hc,
    Nat.ofDigitChars_ten_toDigits⟩

theorem trim_of_isAddressChar {s : List Char} (h : ∀ c ∈ s, isAddressChar c = true) :
    trim s = s := by
  apply trim_eq_self_iff.mpr
  constructor
  · intro c hc
    exact isWhitespace_of_isAddressChar (h c (List.mem_of_mem_head? hc))
  · intro c hc
    exact isWhitespace_of_isAddressChar (h c (List.mem_of_getLast? hc))

section Literals

variable {s rest : List Char} {n v : Nat} {first : Bool}

theorem readNumber_split {radix bound : Nat} {maxDigits : Option Nat} {allowZeroPrefix : Bool}
    (h : readNumber radix bound maxDigits allowZeroPrefix s = some (v, rest)) :
    ∃ digits, s = digits ++ rest ∧ ∀ c ∈ digits, (digitValue radix c).isSome = true := by
  let isDigit := fun c => (digitValue radix c).isSome
  refine ⟨s.takeWhile isDigit, ?_, fun c hc => List.mem_takeWhile_imp (p := isDigit) hc⟩
  have hrest : s.drop (s.takeWhile isDigit).length = rest := by
    unfold readNumber at h
    dsimp only at h
    split at h
    · cases h
    · split at h
      · cases h
      · split at h
        · cases h
        · split at h
          · exact (Prod.mk.inj (Option.some.inj h)).2
          · cases h
  rw [← hrest, drop_takeWhile, List.takeWhile_append_dropWhile]

theorem isLiteralChar_of_digitValue {c : Char} (h : (digitValue 16 c).isSome = true) :
    isLiteralChar c = true := by
  have hcases : c.isDigit = true ∨ ('a' ≤ c ∧ c ≤ 'f') ∨ ('A' ≤ c ∧ c ≤ 'F') := by
    unfold digitValue at h
    by_contra hnone
    rw [not_or, not_or] at hnone
    simp [hnone.1, hnone.2.1, hnone.2.2] at h
  unfold isLiteralChar isAddressChar
  rcases hcases with hdigit | ⟨hlow, hhigh⟩ | hupper
  · simp [hdigit]
  · have hletter : 97 ≤ c.toNat ∧ c.toNat ≤ 102 := ⟨hlow, hhigh⟩
    simp [hletter]
  · simp [hupper]

theorem readGroups_split (n : Nat) (first : Bool) (s : List Char) :
    ∃ taken, s = taken ++ (readGroups n first s).2.2 ∧ ∀ c ∈ taken, isLiteralChar c = true := by
  induction n generalizing first s with
  | zero => exact ⟨[], rfl, by simp⟩
  | succ n ih =>
      have hstart : ∀ t, (if first then some s else (readChar ':' s).map (·.2)) = some t →
          ∃ colon, s = colon ++ t ∧ ∀ c ∈ colon, isLiteralChar c = true := by
        intro t ht
        cases first with
        | true =>
            obtain rfl := Option.some.inj ht
            exact ⟨[], rfl, by simp⟩
        | false =>
            obtain ⟨⟨u, t'⟩, hcolon, rfl⟩ := Option.map_eq_some_iff.mp ht
            exact ⟨[':'], readChar_iff.mp hcolon, by simp; decide⟩
      rw [readGroups]
      dsimp only
      split
      · rename_i ip rest hquad
        obtain ⟨t, ht, hread⟩ : ∃ t, (if first then some s else (readChar ':' s).map (·.2)) =
            some t ∧ readIpv4Addr t = some (ip, rest) := by
          split at hquad
          · exact Option.bind_eq_some_iff.mp hquad
          · cases hquad
        obtain ⟨colon, rfl, hcolon⟩ := hstart t ht
        refine ⟨colon ++ ip.text, ?_, ?_⟩
        · rw [(readIpv4Addr_iff.mp hread).1, List.append_assoc]
        · rw [List.forall_mem_append]
          refine ⟨hcolon, fun c hc => ?_⟩
          rw [isLiteralChar, Ipv4Addr.isAddressChar_of_mem hc, Bool.true_or]
      · split
        · rename_i group rest hgroup
          obtain ⟨t, ht, hread⟩ := Option.bind_eq_some_iff.mp hgroup
          obtain ⟨colon, rfl, hcolon⟩ := hstart t ht
          obtain ⟨digits, rfl, hdigits⟩ := readNumber_split hread
          obtain ⟨more, hmore, hall⟩ := ih false rest
          refine ⟨colon ++ digits ++ more, ?_, ?_⟩
          · rw [List.append_assoc, List.append_assoc, ← hmore]
          · rw [List.forall_mem_append, List.forall_mem_append]
            exact ⟨⟨hcolon, fun c hc => isLiteralChar_of_digitValue (hdigits c hc)⟩, hall⟩
        · exact ⟨[], rfl, by simp⟩

theorem length_readGroups_le (h : ':' ∉ s) : (readGroups n true s).1.length ≤ 2 := by
  cases n with
  | zero => exact Nat.zero_le _
  | succ n =>
      rw [readGroups]
      dsimp only
      split
      · rename_i ip rest _
        exact le_rfl
      · split
        · rename_i group rest hgroup
          obtain ⟨t, ht, hread⟩ := Option.bind_eq_some_iff.mp hgroup
          obtain rfl : s = t := Option.some.inj ht
          obtain ⟨digits, rfl, -⟩ := readNumber_split hread
          have hnone : (readGroups n false rest).1 = [] := by
            cases n with
            | zero => rfl
            | succ n =>
                have hcolon : readChar ':' rest = none := by
                  rw [Option.eq_none_iff_forall_ne_some]
                  rintro ⟨u, rest'⟩ hread
                  rw [readChar_iff.mp hread] at h
                  simp at h
                rw [readGroups]
                simp [hcolon]
          simp [hnone]
        · exact Nat.zero_le _

theorem readIpv6Addr_cases {ip : Ipv6Addr} (h : readIpv6Addr s = some (ip, rest)) :
    ((readGroups 8 true s).1.length = 8 ∧ (readGroups 8 true s).2.2 = rest) ∨
      ∃ n back, (readGroups 8 true s).2.2 = ':' :: ':' :: back ∧
        (readGroups n true back).2.2 = rest := by
  unfold readIpv6Addr at h
  dsimp only at h
  split at h
  · rename_i height
    exact .inl ⟨height, (Prod.mk.inj (Option.some.inj h)).2⟩
  · split at h
    · cases h
    · simp only [Option.bind_eq_bind, Option.bind_eq_some_iff, Prod.exists, readChar_iff] at h
      obtain ⟨_, _, hfirst, _, back, rfl, hback⟩ := h
      refine .inr ⟨8 - ((readGroups 8 true s).1.length + 1), back, hfirst, ?_⟩
      split at hback
      · exact (Prod.mk.inj (Option.some.inj hback)).2
      · cases hback

theorem parseIpv6Addr_text {ip : Ipv6Addr} (h : parseIpv6Addr s = some ip) :
    ':' ∈ s ∧ ∀ c ∈ s, isLiteralChar c = true := by
  obtain ⟨front, hfront, hall⟩ := readGroups_split 8 true s
  have hread : readIpv6Addr s = some (ip, []) := by
    unfold parseIpv6Addr at h
    split at h
    · rename_i hread
      rw [hread, Option.some.inj h]
    · cases h
  rcases readIpv6Addr_cases hread with ⟨height, hrest⟩ | ⟨n, back, hdouble, hrest⟩
  · rw [hrest, List.append_nil] at hfront
    constructor
    · by_contra hcolon
      have hlength := length_readGroups_le (n := 8) hcolon
      omega
    · rw [hfront]
      exact hall
  · obtain ⟨taken, hback, hchars⟩ := readGroups_split n true back
    rw [hrest, List.append_nil] at hback
    rw [hdouble, hback] at hfront
    rw [hfront]
    constructor
    · simp
    · rw [List.forall_mem_append, List.forall_mem_cons, List.forall_mem_cons]
      exact ⟨hall, by decide, by decide, hchars⟩

end Literals

end Seamless.Library.NetAddr
