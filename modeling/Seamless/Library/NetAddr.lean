import Mathlib.Data.List.Induction
import Mathlib.Data.List.TakeWhile
import Mathlib.Data.UInt
import Mathlib.Data.Nat.Digits.Defs

/-!
Network addresses and the text forms of the Rust standard library: dotted quads,
IPv6 with the longest run of zero groups compressed, and `host:port`.
-/

namespace Seamless.Library.NetAddr

structure Ipv4Addr where
  a : UInt8
  b : UInt8
  c : UInt8
  d : UInt8
  deriving Repr, DecidableEq

def Ipv4Addr.toBits (ip : Ipv4Addr) : BitVec 32 :=
  ip.a.toBitVec ++ ip.b.toBitVec ++ ip.c.toBitVec ++ ip.d.toBitVec

structure Ipv6Addr where
  segments : List UInt16
  eight : segments.length = 8
  deriving Repr, DecidableEq

inductive IpAddr where
  | v4 (ip : Ipv4Addr)
  | v6 (ip : Ipv6Addr)
  deriving Repr, DecidableEq

def octets (segment : UInt16) : UInt8 × UInt8 :=
  (UInt8.ofNat (segment.toNat / 256), UInt8.ofNat (segment.toNat % 256))

/-- `Ipv6Addr::to_ipv4_mapped`: addresses in `::ffff:0:0/96`. -/
def Ipv6Addr.toIpv4Mapped (ip : Ipv6Addr) : Option Ipv4Addr :=
  match ip.segments with
  | [0, 0, 0, 0, 0, 0xffff, ab, cd] =>
      some ⟨(octets ab).1, (octets ab).2, (octets cd).1, (octets cd).2⟩
  | _ => none

/-- `Ipv6Addr::to_ipv4`: IPv4-mapped and IPv4-compatible addresses. -/
def Ipv6Addr.toIpv4 (ip : Ipv6Addr) : Option Ipv4Addr :=
  match ip.segments with
  | [0, 0, 0, 0, 0, mark, ab, cd] =>
      if mark = 0 ∨ mark = 0xffff then
        some ⟨(octets ab).1, (octets ab).2, (octets cd).1, (octets cd).2⟩
      else none
  | _ => none

def decimal (n : Nat) : List Char := Nat.toDigits 10 n

def hexadecimal (n : Nat) : List Char := Nat.toDigits 16 n

def Ipv4Addr.text (ip : Ipv4Addr) : List Char :=
  decimal ip.a.toNat ++ '.' :: decimal ip.b.toNat ++ '.' ::
    decimal ip.c.toNat ++ '.' :: decimal ip.d.toNat

def groupsText : List UInt16 → List Char
  | [] => []
  | [segment] => hexadecimal segment.toNat
  | segment :: segments => hexadecimal segment.toNat ++ ':' :: groupsText segments

structure Span where
  start : Nat
  len : Nat
  deriving Repr, DecidableEq

/-- The first longest run of zero groups, scanned from the left. -/
def longestZeroes (segments : List UInt16) : Span :=
  (segments.zipIdx.foldl (fun (spans : Span × Span) (entry : UInt16 × Nat) =>
    if entry.1 = 0 then
      let current : Span :=
        ⟨if spans.2.len = 0 then entry.2 else spans.2.start, spans.2.len + 1⟩
      (if spans.1.len < current.len then current else spans.1, current)
    else (spans.1, ⟨0, 0⟩)) (⟨0, 0⟩, ⟨0, 0⟩)).1

def Ipv6Addr.text (ip : Ipv6Addr) : List Char :=
  match ip.toIpv4Mapped with
  | some mapped => "::ffff:".toList ++ mapped.text
  | none =>
      let zeroes := longestZeroes ip.segments
      if 1 < zeroes.len then
        groupsText (ip.segments.take zeroes.start) ++ "::".toList ++
          groupsText (ip.segments.drop (zeroes.start + zeroes.len))
      else groupsText ip.segments

def IpAddr.text : IpAddr → List Char
  | .v4 ip => ip.text
  | .v6 ip => ip.text

def IpAddr.toString (ip : IpAddr) : String := String.ofList ip.text

/-- A peer: address, port and the scope of an IPv6 address. -/
structure SocketAddr where
  ip : IpAddr
  port : UInt16
  scopeId : UInt32
  deriving Repr, DecidableEq

def SocketAddr.text (addr : SocketAddr) : List Char :=
  match addr.ip with
  | .v4 ip => ip.text ++ ':' :: decimal addr.port.toNat
  | .v6 ip =>
      if addr.scopeId = 0 then '[' :: ip.text ++ "]:".toList ++ decimal addr.port.toNat
      else '[' :: ip.text ++ '%' :: decimal addr.scopeId.toNat ++ "]:".toList ++
        decimal addr.port.toNat

def SocketAddr.toString (addr : SocketAddr) : String := String.ofList addr.text

/-- A reader that takes a value off the front of a text, or leaves it alone. -/
abbrev Reader (α : Type) := List Char → Option (α × List Char)

def digitValue (radix : Nat) (c : Char) : Option Nat :=
  let value :=
    if c.isDigit then some (c.toNat - '0'.toNat)
    else if 'a' ≤ c ∧ c ≤ 'f' then some (c.toNat - 'a'.toNat + 10)
    else if 'A' ≤ c ∧ c ≤ 'F' then some (c.toNat - 'A'.toNat + 10)
    else none
  value.filter (· < radix)

/-- A run of digits below `bound`, not longer than `maxDigits`. -/
def readNumber (radix bound : Nat) (maxDigits : Option Nat) (allowZeroPrefix : Bool) :
    Reader Nat := fun s =>
  let digits := s.takeWhile fun c => (digitValue radix c).isSome
  let value := digits.foldl (fun n c => radix * n + (digitValue radix c).getD 0) 0
  if digits.isEmpty then none
  else if maxDigits.any (· < digits.length) then none
  else if !allowZeroPrefix && digits.head? == some '0' && 1 < digits.length then none
  else if value < bound then some (value, s.drop digits.length)
  else none

def readChar (c : Char) : Reader Unit
  | [] => none
  | d :: rest => if d = c then some ((), rest) else none

def readIpv4Addr : Reader Ipv4Addr := fun s => do
  let octet := readNumber 10 256 (some 3) false
  let (a, s) ← octet s
  let (_, s) ← readChar '.' s
  let (b, s) ← octet s
  let (_, s) ← readChar '.' s
  let (c, s) ← octet s
  let (_, s) ← readChar '.' s
  let (d, s) ← octet s
  return (⟨UInt8.ofNat a, UInt8.ofNat b, UInt8.ofNat c, UInt8.ofNat d⟩, s)

def Ipv4Addr.groups (ip : Ipv4Addr) : List UInt16 :=
  [UInt16.ofNat (256 * ip.a.toNat + ip.b.toNat), UInt16.ofNat (256 * ip.c.toNat + ip.d.toNat)]

/-- At most `n` groups of an IPv6 address, the last two possibly as a dotted quad;
also whether there was one. -/
def readGroups : Nat → Bool → List Char → List UInt16 × Bool × List Char
  | 0, _, s => ([], false, s)
  | n + 1, first, s =>
      let start := if first then some s else (readChar ':' s).map (·.2)
      match if 0 < n then start.bind readIpv4Addr else none with
      | some (ip, rest) => (ip.groups, true, rest)
      | none =>
          match start.bind (readNumber 16 65536 (some 4) true) with
          | some (group, rest) =>
              let more := readGroups n false rest
              (UInt16.ofNat group :: more.1, more.2)
          | none => ([], false, s)

def readIpv6Addr : Reader Ipv6Addr := fun s =>
  let front := readGroups 8 true s
  if h : front.1.length = 8 then some (⟨front.1, h⟩, front.2.2)
  else if front.2.1 then none
  else do
    let (_, s) ← readChar ':' front.2.2
    let (_, s) ← readChar ':' s
    let back := readGroups (8 - (front.1.length + 1)) true s
    let segments := front.1 ++ List.replicate (8 - front.1.length - back.1.length) 0 ++ back.1
    if h : segments.length = 8 then some (⟨segments, h⟩, back.2.2) else none

def readPort : Reader UInt16 := fun s => do
  let (_, s) ← readChar ':' s
  let (port, s) ← readNumber 10 65536 none true s
  return (UInt16.ofNat port, s)

def readSocketAddrV4 : Reader SocketAddr := fun s => do
  let (ip, s) ← readIpv4Addr s
  let (port, s) ← readPort s
  return (⟨.v4 ip, port, 0⟩, s)

def readScopeId : Reader UInt32 := fun s => do
  let (_, s) ← readChar '%' s
  let (scope, s) ← readNumber 10 (2 ^ 32) none true s
  return (UInt32.ofNat scope, s)

def readSocketAddrV6 : Reader SocketAddr := fun s => do
  let (_, s) ← readChar '[' s
  let (ip, s) ← readIpv6Addr s
  let (scope, s) := (readScopeId s).getD (0, s)
  let (_, s) ← readChar ']' s
  let (port, s) ← readPort s
  return (⟨.v6 ip, port, scope⟩, s)

/-- `str::parse::<SocketAddr>`: nothing may be left over. -/
def parseSocketAddr (s : String) : Option SocketAddr :=
  match (readSocketAddrV4 s.toList).or (readSocketAddrV6 s.toList) with
  | some (addr, []) => some addr
  | _ => none

/-- `str::parse::<Ipv4Addr>`. -/
def parseIpv4Addr (s : List Char) : Option Ipv4Addr :=
  if 15 < s.length then none
  else
    match readIpv4Addr s with
    | some (ip, []) => some ip
    | _ => none

theorem length_decimal_le {n k : Nat} (hk : 0 < k) (hn : n < 10 ^ k) :
    (decimal n).length ≤ k :=
  (Nat.length_toDigits_le_iff (by norm_num) hk).mpr hn

theorem length_hexadecimal_le (segment : UInt16) : (hexadecimal segment.toNat).length ≤ 4 :=
  (Nat.length_toDigits_le_iff (by norm_num) (by norm_num)).mpr segment.toNat_lt

theorem Ipv4Addr.length_text_le (ip : Ipv4Addr) : ip.text.length ≤ 15 := by
  have octet : ∀ x : UInt8, (decimal x.toNat).length ≤ 3 := by
    intro x
    have hx := x.toNat_lt
    exact length_decimal_le (by norm_num) (by omega)
  have ha := octet ip.a
  have hb := octet ip.b
  have hc := octet ip.c
  have hd := octet ip.d
  simp only [text, List.length_append, List.length_cons]
  omega

theorem length_groupsText_le (segments : List UInt16) :
    (groupsText segments).length ≤ 5 * segments.length := by
  fun_induction groupsText segments with
  | case1 => simp
  | case2 segment =>
      have hfirst := length_hexadecimal_le segment
      simp only [List.length_singleton]
      omega
  | case3 segment segments _ ih =>
      have hfirst := length_hexadecimal_le segment
      simp only [List.length_append, List.length_cons] at ih ⊢
      omega

theorem Ipv6Addr.length_text_le (ip : Ipv6Addr) : ip.text.length ≤ 82 := by
  unfold text
  split
  · rename_i mapped _
    have hmapped := mapped.length_text_le
    simp only [List.length_append, String.length_toList]
    have hfront : "::ffff:".length = 7 := rfl
    omega
  · dsimp only
    split
    · have hleft := length_groupsText_le (ip.segments.take (longestZeroes ip.segments).start)
      have hright := length_groupsText_le (ip.segments.drop
        ((longestZeroes ip.segments).start + (longestZeroes ip.segments).len))
      simp only [List.length_take, List.length_drop, ip.eight] at hleft hright
      simp only [List.length_append, String.length_toList]
      have hmiddle : "::".length = 2 := rfl
      omega
    · have hall := length_groupsText_le ip.segments
      rw [ip.eight] at hall
      omega

theorem SocketAddr.length_text_le (addr : SocketAddr) : addr.text.length ≤ 110 := by
  have hport : (decimal addr.port.toNat).length ≤ 5 := by
    have hlt := addr.port.toNat_lt
    exact length_decimal_le (by norm_num) (by omega)
  have hscope : (decimal addr.scopeId.toNat).length ≤ 10 := by
    have hlt := addr.scopeId.toNat_lt
    exact length_decimal_le (by norm_num) (by omega)
  have hclose : "]:".length = 2 := rfl
  unfold text
  split
  · rename_i ip _
    have hip := ip.length_text_le
    simp only [List.length_append, List.length_cons]
    omega
  · rename_i ip _
    have hip := ip.length_text_le
    split <;> simp only [List.length_append, List.length_cons, String.length_toList] <;> omega

example : (IpAddr.v4 ⟨192, 168, 0, 7⟩).toString = "192.168.0.7" := by decide

example : (IpAddr.v6 ⟨[0x2001, 0xdb8, 0, 0, 1, 0, 0, 1], rfl⟩).toString =
    "2001:db8::1:0:0:1" := by decide

example : parseSocketAddr "[2001:db8::192.0.2.1]:8080" =
    some ⟨.v6 ⟨[0x2001, 0xdb8, 0, 0, 0, 0, 0xc000, 0x201], rfl⟩, 8080, 0⟩ := by decide +kernel

theorem digitChar_of_isDigit {c : Char} (h : c.isDigit = true) :
    c.toNat - '0'.toNat < 10 ∧ Nat.digitChar (c.toNat - '0'.toNat) = c := by
  simp only [Char.isDigit, Bool.and_eq_true, decide_eq_true_eq, ge_iff_le,
    UInt32.le_iff_toNat_le] at h
  obtain ⟨hlow, hhigh⟩ := h
  change 48 ≤ c.toNat at hlow
  change c.toNat ≤ 57 at hhigh
  change c.toNat - 48 < 10 ∧ Nat.digitChar (c.toNat - 48) = c
  have hlt : c.toNat - 48 < 10 := by omega
  have hall : ∀ n : Fin 10, Nat.digitChar n.val = Char.ofNat (48 + n.val) := by decide
  have hcode : 48 + (c.toNat - 48) = c.toNat := by omega
  refine ⟨hlt, ?_⟩
  rw [hall ⟨_, hlt⟩, hcode, Char.ofNat_toNat]

theorem toDigits_digit {c : Char} (h : c.isDigit = true) :
    Nat.toDigits 10 (c.toNat - '0'.toNat) = [c] := by
  obtain ⟨hlt, hchar⟩ := digitChar_of_isDigit h
  rw [Nat.toDigits_of_lt_base hlt, hchar]

theorem ofDigitChars_pos {ds : List Char} (hne : ds ≠ []) (hdigits : ∀ c ∈ ds, c.isDigit = true)
    (hlead : ds.head? ≠ some '0') : 0 < Nat.ofDigitChars 10 ds 0 := by
  cases ds with
  | nil => exact absurd rfl hne
  | cons c ds =>
      obtain ⟨-, hchar⟩ := digitChar_of_isDigit (hdigits c (by simp))
      have hpos : 0 < c.toNat - '0'.toNat := by
        apply Nat.pos_of_ne_zero
        intro hzero
        rw [hzero] at hchar
        exact hlead (by rw [← hchar]; rfl)
      rw [Nat.ofDigitChars_cons, Nat.ofDigitChars_eq_ofDigitChars_zero]
      have hpow : 0 < 10 ^ ds.length * (10 * 0 + (c.toNat - '0'.toNat)) := by
        apply Nat.mul_pos (by positivity)
        omega
      omega

theorem decimal_ofDigitChars {ds : List Char} (hne : ds ≠ []) (hdigits : ∀ c ∈ ds, c.isDigit = true)
    (hlead : ds.head? = some '0' → ds.length = 1) :
    decimal (Nat.ofDigitChars 10 ds 0) = ds := by
  induction ds using List.reverseRecOn with
  | nil => exact absurd rfl hne
  | append_singleton ds c ih =>
      have hc : c.isDigit = true := hdigits c (by simp)
      have hds : ∀ d ∈ ds, d.isDigit = true := fun d hd => hdigits d (by simp [hd])
      have hlast := toDigits_digit hc
      rw [Nat.ofDigitChars_append, Nat.ofDigitChars_cons, Nat.ofDigitChars_nil]
      cases ds with
      | nil => simpa [decimal] using hlast
      | cons d ds =>
          have hfirst : (d :: ds).head? ≠ some '0' := by
            intro hzero
            have hone := hlead (by simpa using hzero)
            simp at hone
          have hpos := ofDigitChars_pos (by simp) hds hfirst
          have hinit := ih (by simp) hds fun hzero => absurd hzero hfirst
          rw [decimal,
            ← Nat.toDigits_append_toDigits (by norm_num) hpos (digitChar_of_isDigit hc).1,
            hlast]
          rw [decimal] at hinit
          rw [hinit]

theorem digitValue_ten (c : Char) :
    digitValue 10 c = if c.isDigit = true then some (c.toNat - '0'.toNat) else none := by
  unfold digitValue
  split
  · rename_i hdigit
    simpa [Option.filter] using (digitChar_of_isDigit hdigit).1
  · dsimp only
    split
    · simp [Option.filter]
    · split <;> simp [Option.filter]

theorem foldl_digitValue {ds : List Char} (hdigits : ∀ c ∈ ds, c.isDigit = true) (n : Nat) :
    ds.foldl (fun n c => 10 * n + (digitValue 10 c).getD 0) n = Nat.ofDigitChars 10 ds n := by
  induction ds generalizing n with
  | nil => rfl
  | cons c ds ih =>
      have hc := hdigits c (by simp)
      rw [List.foldl_cons, ih fun d hd => hdigits d (by simp [hd]), Nat.ofDigitChars_cons,
        digitValue_ten, if_pos hc, Option.getD_some]

theorem isDigit_of_mem_decimal {n : Nat} {c : Char} (h : c ∈ decimal n) : c.isDigit = true :=
  Nat.isDigit_of_mem_toDigits (by norm_num) le_rfl h

/-- The characters that a printed address is made of. -/
def isAddressChar (c : Char) : Bool :=
  c.isDigit || (97 ≤ c.toNat && c.toNat ≤ 102) || c == '.' || c == ':'

theorem isAddressChar_bounds {c : Char} (h : isAddressChar c = true) :
    46 ≤ c.toNat ∧ c.toNat ≤ 102 := by
  simp only [isAddressChar, Bool.or_eq_true, Bool.and_eq_true, decide_eq_true_eq, beq_iff_eq] at h
  rcases h with ((h | h) | rfl) | rfl
  · have hzero : '0'.toNat = 48 := rfl
    have hnine : '9'.toNat = 57 := rfl
    rw [Char.isDigit_iff_toNat] at h
    omega
  · omega
  · decide
  · decide

theorem isAddressChar_of_mem_decimal {n : Nat} {c : Char} (h : c ∈ decimal n) :
    isAddressChar c = true := by
  simp [isAddressChar, isDigit_of_mem_decimal h]

theorem isAddressChar_of_mem_hexadecimal {n : Nat} {c : Char} (h : c ∈ hexadecimal n) :
    isAddressChar c = true := by
  have hall : ∀ d : Fin 16, isAddressChar (Nat.digitChar d.val) = true := by decide
  induction n using Nat.strongRecOn with
  | ind n ih =>
      rcases Nat.lt_or_ge n 16 with hlt | hge
      · rw [hexadecimal, Nat.toDigits_of_lt_base hlt, List.mem_singleton] at h
        rw [h]
        exact hall ⟨n, hlt⟩
      · rw [hexadecimal, Nat.toDigits_of_base_le (by norm_num) hge, List.mem_append,
          List.mem_singleton] at h
        rcases h with hfront | rfl
        · exact ih (n / 16) (by omega) hfront
        · exact hall ⟨n % 16, by omega⟩

theorem Ipv4Addr.isDigit_or_dot_of_mem {ip : Ipv4Addr} {c : Char} (h : c ∈ ip.text) :
    c.isDigit = true ∨ c = '.' := by
  simp only [text, List.append_assoc, List.cons_append, List.mem_append, List.mem_cons] at h
  rcases h with h | rfl | h | rfl | h | rfl | h
  · exact .inl (isDigit_of_mem_decimal h)
  · exact .inr rfl
  · exact .inl (isDigit_of_mem_decimal h)
  · exact .inr rfl
  · exact .inl (isDigit_of_mem_decimal h)
  · exact .inr rfl
  · exact .inl (isDigit_of_mem_decimal h)

theorem Ipv4Addr.notMem_text (ip : Ipv4Addr) {c : Char} (hdigit : c.isDigit = false)
    (hdot : c ≠ '.') : c ∉ ip.text := by
  intro hc
  rcases isDigit_or_dot_of_mem hc with h | h
  · rw [h] at hdigit
    cases hdigit
  · exact hdot h

theorem Ipv4Addr.isAddressChar_of_mem {ip : Ipv4Addr} {c : Char} (h : c ∈ ip.text) :
    isAddressChar c = true := by
  rcases isDigit_or_dot_of_mem h with hdigit | rfl
  · simp [isAddressChar, hdigit]
  · rfl

theorem isAddressChar_of_mem_groupsText {segments : List UInt16} {c : Char}
    (h : c ∈ groupsText segments) : isAddressChar c = true := by
  fun_induction groupsText segments with
  | case1 => simp at h
  | case2 segment => exact isAddressChar_of_mem_hexadecimal h
  | case3 segment segments _ ih =>
      rw [List.mem_append, List.mem_cons] at h
      rcases h with h | rfl | h
      · exact isAddressChar_of_mem_hexadecimal h
      · rfl
      · exact ih h

theorem Ipv6Addr.isAddressChar_of_mem {ip : Ipv6Addr} {c : Char} (h : c ∈ ip.text) :
    isAddressChar c = true := by
  have hmapped : ∀ c ∈ "::ffff:".toList, isAddressChar c = true :=
    List.all_eq_true.mp (by decide)
  have hzeroes : ∀ c ∈ "::".toList, isAddressChar c = true :=
    List.all_eq_true.mp (by decide)
  unfold text at h
  split at h
  · rcases List.mem_append.mp h with h | h
    · exact hmapped c h
    · exact Ipv4Addr.isAddressChar_of_mem h
  · dsimp only at h
    split at h
    · rw [List.append_assoc, List.mem_append, List.mem_append] at h
      rcases h with h | h | h
      · exact isAddressChar_of_mem_groupsText h
      · exact hzeroes c h
      · exact isAddressChar_of_mem_groupsText h
    · exact isAddressChar_of_mem_groupsText h

theorem IpAddr.isAddressChar_of_mem {ip : IpAddr} {c : Char} (h : c ∈ ip.text) :
    isAddressChar c = true := by
  cases ip with
  | v4 ip => exact Ipv4Addr.isAddressChar_of_mem h
  | v6 ip => exact Ipv6Addr.isAddressChar_of_mem h

theorem head_decimal_ne {n : Nat} (h : 0 < n) : (decimal n).head? ≠ some '0' := by
  induction n using Nat.strongRecOn with
  | ind n ih =>
      rcases Nat.lt_or_ge n 10 with hlt | hge
      · have hall : ∀ m : Fin 10, 0 < m.val → Nat.digitChar m.val ≠ '0' := by decide
        rw [decimal, Nat.toDigits_of_lt_base hlt]
        simpa using hall ⟨n, hlt⟩ h
      · have hhead : (decimal n).head? = (decimal (n / 10)).head? := by
          rw [decimal, Nat.toDigits_of_base_le (by norm_num) hge, List.head?_append_of_ne_nil]
          · rfl
          · exact Nat.toDigits_ne_nil
        rw [hhead]
        exact ih (n / 10) (by omega) (by omega)

theorem length_decimal_of_head {n : Nat} (h : (decimal n).head? = some '0') :
    (decimal n).length = 1 := by
  rcases Nat.eq_zero_or_pos n with rfl | hpos
  · rfl
  · exact absurd h (head_decimal_ne hpos)

theorem takeWhile_digits (s : List Char) :
    (s.takeWhile fun c => (digitValue 10 c).isSome) = s.takeWhile Char.isDigit := by
  congr 1
  funext c
  rw [digitValue_ten]
  by_cases hdigit : c.isDigit = true <;> simp [hdigit]

theorem drop_takeWhile {α : Type*} (p : α → Bool) (s : List α) :
    s.drop (s.takeWhile p).length = s.dropWhile p := by
  have hsplit := List.takeWhile_append_dropWhile (p := p) (l := s)
  calc s.drop (s.takeWhile p).length
      = (s.takeWhile p ++ s.dropWhile p).drop (s.takeWhile p).length := by rw [hsplit]
    _ = s.dropWhile p := List.drop_left

theorem takeWhile_decimal {rest : List Char} (v : Nat)
    (hrest : ∀ c ∈ rest.head?, c.isDigit = false) :
    (decimal v ++ rest).takeWhile Char.isDigit = decimal v := by
  rw [List.takeWhile_append_of_pos fun c hc => isDigit_of_mem_decimal hc]
  cases rest with
  | nil => simp
  | cons c rest => rw [List.takeWhile_cons_of_neg (by simpa using hrest), List.append_nil]

theorem readNumber_octet_iff {s rest : List Char} {v : Nat} :
    readNumber 10 256 (some 3) false s = some (v, rest) ↔
      v < 256 ∧ s = decimal v ++ rest ∧ ∀ c ∈ rest.head?, c.isDigit = false := by
  have hall : ∀ c ∈ s.takeWhile Char.isDigit, c.isDigit = true :=
    fun c hc => List.mem_takeWhile_imp hc
  simp only [readNumber, takeWhile_digits, foldl_digitValue hall]
  constructor
  · intro h
    split at h
    · cases h
    rename_i hne
    split at h
    · cases h
    split at h
    · cases h
    rename_i hzero
    split at h
    · rename_i hlt
      obtain ⟨rfl, rfl⟩ : Nat.ofDigitChars 10 (s.takeWhile Char.isDigit) 0 = v ∧
          s.drop (s.takeWhile Char.isDigit).length = rest := by
        simpa using h
      refine ⟨hlt, ?_, ?_⟩
      · rw [decimal_ofDigitChars (by simpa using hne) hall, drop_takeWhile,
          List.takeWhile_append_dropWhile]
        intro hhead
        have hlength : 0 < (s.takeWhile Char.isDigit).length := by
          apply List.length_pos_iff.mpr
          simpa using hne
        simp only [Bool.not_false, Bool.true_and, hhead, beq_self_eq_true,
          decide_eq_true_eq] at hzero
        omega
      · rw [drop_takeWhile]
        intro c hc
        have hhead := List.head?_dropWhile_not Char.isDigit s
        rw [Option.mem_def.mp hc] at hhead
        simpa using hhead
    · cases h
  · rintro ⟨hlt, rfl, hrest⟩
    have hlength := length_decimal_le (k := 3) (by norm_num) (show v < 10 ^ 3 by omega)
    have hzero : (decimal v).head? = some '0' → ¬ 1 < (decimal v).length := by
      intro hhead
      rw [length_decimal_of_head hhead]
      omega
    have hnonempty : (decimal v).isEmpty = false := by
      simp [decimal]
    have hvalue : Nat.ofDigitChars 10 (decimal v) 0 = v := Nat.ofDigitChars_ten_toDigits
    simp only [takeWhile_decimal v hrest, hnonempty, hvalue, Bool.false_eq_true, if_false,
      Option.any_some, decide_eq_true_eq, Bool.not_false, Bool.true_and, Bool.and_eq_true,
      beq_iff_eq, hlt, if_true, List.drop_left]
    rw [if_neg (by omega), if_neg (fun h => hzero h.1 h.2)]

theorem readChar_iff {c : Char} {s rest : List Char} {u : Unit} :
    readChar c s = some (u, rest) ↔ s = c :: rest := by
  cases s with
  | nil => simp [readChar]
  | cons d s => simp [readChar]

/-- The reader of a dotted quad takes an address off the front of a text when it starts
with the text of that address. -/
theorem readIpv4Addr_iff {s rest : List Char} {ip : Ipv4Addr} :
    readIpv4Addr s = some (ip, rest) ↔
      s = ip.text ++ rest ∧ ∀ c ∈ rest.head?, c.isDigit = false := by
  have hoctet : ∀ x : UInt8, x.toNat < 256 := fun x => x.toNat_lt
  have hback : ∀ {v : Nat}, v < 256 → (UInt8.ofNat v).toNat = v := fun h => Nat.mod_eq_of_lt h
  constructor
  · intro h
    simp only [readIpv4Addr, Option.bind_eq_bind, Option.bind_eq_some_iff, Prod.exists,
      readNumber_octet_iff, readChar_iff, Option.pure_def, Option.some.injEq, Prod.mk.injEq] at h
    obtain ⟨a, _, ⟨ha, rfl, -⟩, _, _, rfl, b, _, ⟨hb, rfl, -⟩, _, _, rfl, c, _, ⟨hc, rfl, -⟩, _, _,
      rfl, d, _, ⟨hd, rfl, hrest⟩, rfl, rfl⟩ := h
    refine ⟨?_, hrest⟩
    simp [Ipv4Addr.text, hback ha, hback hb, hback hc, hback hd]
  · rintro ⟨rfl, hrest⟩
    have hdot : ∀ t : List Char, ∀ c ∈ ('.' :: t).head?, c.isDigit = false := by simp
    simp only [readIpv4Addr, Option.bind_eq_bind, Option.bind_eq_some_iff, Prod.exists,
      readNumber_octet_iff, readChar_iff, Option.pure_def, Option.some.injEq, Prod.mk.injEq]
    exact ⟨_, _, ⟨hoctet ip.a, by simp [Ipv4Addr.text], hdot _⟩, (), _, rfl,
      _, _, ⟨hoctet ip.b, rfl, hdot _⟩, (), _, rfl,
      _, _, ⟨hoctet ip.c, rfl, hdot _⟩, (), _, rfl,
      _, _, ⟨hoctet ip.d, rfl, hrest⟩, by simp, rfl⟩

theorem parseIpv4Addr_iff {s : List Char} {ip : Ipv4Addr} :
    parseIpv4Addr s = some ip ↔ s = ip.text := by
  unfold parseIpv4Addr
  constructor
  · intro h
    split at h
    · cases h
    · split at h
      · rename_i ip' hread
        obtain rfl := Option.some.inj h
        simpa using (readIpv4Addr_iff.mp hread).1
      · cases h
  · rintro rfl
    have hread : readIpv4Addr ip.text = some (ip, []) := readIpv4Addr_iff.mpr (by simp)
    have hlength := ip.length_text_le
    rw [if_neg (by omega), hread]

end Seamless.Library.NetAddr
