import Seamless.Relay.AdminApi

/-!
CIDRs as the relay reads them, and the allowlist in front of the admin interface. What
an item of the list means is said without its parser: a dotted quad, a slash, and how
many leading bits of an address have to agree with it.
-/

namespace Seamless.Relay

open Seamless.Library
open Seamless.Library.NetAddr
open Seamless.Library.Text

/-- `!0u32 << (32 - prefix_len)`, with the case of no bits apart. -/
def prefixMask (prefixLen : Nat) : BitVec 32 :=
  if prefixLen = 0 then 0 else BitVec.allOnes 32 <<< (32 - prefixLen)

def Cidr.ofPrefix (ip : Ipv4Addr) (prefixLen : Nat) : Cidr where
  net := ip.toBits &&& prefixMask prefixLen
  mask := prefixMask prefixLen

/-- The two functions `parse_cidr`, which differ in what they trim. -/
def parseCidrTrimming (item address : List Char → List Char) (s : List Char) : Option Cidr :=
  match splitAt '/' (item s) with
  | (_, none) => none
  | (ipStr, some prefixLenStr) => do
      let prefixLen ← (parseU32 prefixLenStr).filter (· ≤ 32)
      let ip ← parseIpv4Addr (address ipStr)
      return .ofPrefix ip prefixLen.toNat

/-- `parse_cidr` of `main.rs`. -/
def parseCidr (s : List Char) : Option Cidr := parseCidrTrimming trim id s

/-- `str::split`, on a character. -/
def splitOn (sep : Char) : List Char → List (List Char)
  | [] => [[]]
  | c :: rest =>
      if c = sep then [] :: splitOn sep rest
      else
        match splitOn sep rest with
        | [] => [[c]]
        | piece :: pieces => (c :: piece) :: pieces

/-- `admin_cidrs` in `main`. -/
def adminCidrs (adminAllowCidr : Option String) : List Cidr :=
  ((splitOn ',' (adminAllowCidr.getD "").toList).filter fun s => !s.isEmpty).filterMap parseCidr

/-- `item` is an IPv4 CIDR: an address, a slash, and a prefix length. -/
structure IsCidr (item : List Char) (net : Ipv4Addr) (prefixLen : Nat) : Prop where
  text : ∃ digits, item = net.text ++ '/' :: digits ∧ IsNumeral digits prefixLen
  le : prefixLen ≤ 32

/-- The first `prefixLen` bits of the two addresses agree. -/
def SameNetwork (net : Ipv4Addr) (prefixLen : Nat) (ip : Ipv4Addr) : Prop :=
  ∀ i < prefixLen, ip.toBits.getMsbD i = net.toBits.getMsbD i

/-- Some item of the list, trimmed, is a CIDR with the address in its network. -/
def Allows (adminAllowCidr : String) (peer : IpAddr) : Prop :=
  ∃ item ∈ splitOn ',' adminAllowCidr.toList, ∃ net prefixLen ip,
    IsCidr (trim item) net prefixLen ∧ peer = .v4 ip ∧ SameNetwork net prefixLen ip

section Parse

variable {s item : List Char} {cidr : Cidr} {net ip : Ipv4Addr} {prefixLen : Nat}

theorem getMsbD_prefixMask (h : prefixLen ≤ 32) (i : Nat) :
    (prefixMask prefixLen).getMsbD i = decide (i < prefixLen) := by
  unfold prefixMask
  split
  · rename_i hzero
    simp [hzero]
  · rw [BitVec.getMsbD_shiftLeft, BitVec.getMsbD_allOnes]
    congr 1
    apply propext
    omega

theorem and_prefixMask_eq_iff (h : prefixLen ≤ 32) :
    ip.toBits &&& prefixMask prefixLen = net.toBits &&& prefixMask prefixLen ↔
      SameNetwork net prefixLen ip := by
  constructor
  · intro heq i hi
    have hbit := congrArg (fun x : BitVec 32 => x.getMsbD i) heq
    simpa [BitVec.getMsbD_and, getMsbD_prefixMask h, hi] using hbit
  · intro hsame
    apply BitVec.eq_of_getMsbD_eq
    intro i _
    rw [BitVec.getMsbD_and, BitVec.getMsbD_and, getMsbD_prefixMask h]
    by_cases hi : i < prefixLen
    · rw [hsame i hi]
    · simp [hi]

theorem slash_notMem_text (net : Ipv4Addr) : '/' ∉ net.text :=
  net.notMem_text (by decide) (by decide)

theorem parseCidrTrimming_eq_some_iff {onItem onAddress : List Char → List Char} :
    parseCidrTrimming onItem onAddress s = some cidr ↔
      ∃ front digits net prefixLen, onItem s = front ++ '/' :: digits ∧ '/' ∉ front ∧
        onAddress front = net.text ∧ IsNumeral digits prefixLen ∧ prefixLen ≤ 32 ∧
        cidr = .ofPrefix net prefixLen := by
  unfold parseCidrTrimming
  constructor
  · intro h
    split at h
    · cases h
    · rename_i front digits hsplit
      obtain ⟨hitem, hfront⟩ := splitAt_eq_some_iff.mp hsplit
      simp only [Option.bind_eq_bind, Option.bind_eq_some_iff, Option.filter_eq_some_iff,
        parseU32_eq_some_iff, parseIpv4Addr_iff, Option.pure_def, Option.some.injEq,
        decide_eq_true_eq] at h
      obtain ⟨prefixLen, ⟨hdigits, hle⟩, net, hnet, rfl⟩ := h
      exact ⟨front, digits, net, prefixLen.toNat, hitem, hfront, hnet, hdigits, hle, rfl⟩
  · rintro ⟨front, digits, net, prefixLen, hitem, hfront, hnet, hdigits, hle, rfl⟩
    have hvalue : (UInt32.ofNat prefixLen).toNat = prefixLen :=
      UInt32.toNat_ofNat_of_lt' (hle.trans_lt (by decide))
    rw [splitAt_eq_some_iff.mpr ⟨hitem, hfront⟩]
    simp only [Option.bind_eq_bind, Option.bind_eq_some_iff, Option.filter_eq_some_iff,
      parseU32_eq_some_iff, parseIpv4Addr_iff, Option.pure_def, Option.some.injEq,
      decide_eq_true_eq]
    refine ⟨UInt32.ofNat prefixLen, ⟨by rwa [hvalue], ?_⟩, net, hnet, by rw [hvalue]⟩
    rw [UInt32.le_iff_toNat_le, hvalue]
    exact hle

theorem parseCidr_eq_some_iff : parseCidr s = some cidr ↔
    ∃ net prefixLen, IsCidr (trim s) net prefixLen ∧ cidr = .ofPrefix net prefixLen := by
  rw [parseCidr, parseCidrTrimming_eq_some_iff]
  constructor
  · rintro ⟨front, digits, net, prefixLen, hitem, -, hnet, hdigits, hle, rfl⟩
    rw [id] at hnet
    exact ⟨net, prefixLen, ⟨⟨digits, by rw [hitem, hnet], hdigits⟩, hle⟩, rfl⟩
  · rintro ⟨net, prefixLen, ⟨⟨digits, hitem, hdigits⟩, hle⟩, rfl⟩
    exact ⟨net.text, digits, net, prefixLen, hitem, slash_notMem_text net, rfl, hdigits, hle, rfl⟩

theorem not_isCidr_nil : ¬ IsCidr [] net prefixLen := by
  rintro ⟨⟨digits, htext, -⟩, -⟩
  simp at htext

theorem mem_adminCidrs_iff {adminAllowCidr : String} : cidr ∈ adminCidrs (some adminAllowCidr) ↔
    ∃ item ∈ splitOn ',' adminAllowCidr.toList, ∃ net prefixLen,
      IsCidr (trim item) net prefixLen ∧ cidr = .ofPrefix net prefixLen := by
  simp only [adminCidrs, Option.getD_some, List.mem_filterMap, List.mem_filter,
    parseCidr_eq_some_iff]
  constructor
  · rintro ⟨item, ⟨hitem, -⟩, hcidr⟩
    exact ⟨item, hitem, hcidr⟩
  · rintro ⟨item, hitem, net, prefixLen, hcidr, rfl⟩
    refine ⟨item, ⟨hitem, ?_⟩, net, prefixLen, hcidr, rfl⟩
    rw [Bool.not_eq_true', List.isEmpty_eq_false_iff]
    rintro rfl
    exact not_isCidr_nil hcidr

theorem ipInCidr_iff {cidrs : List Cidr} (hne : cidrs ≠ []) {peer : IpAddr} :
    ipInCidr peer cidrs = true ↔
      ∃ ip, peer = .v4 ip ∧ ∃ cidr ∈ cidrs, ip.toBits &&& cidr.mask = cidr.net := by
  unfold ipInCidr
  rw [if_neg (by simpa using hne)]
  cases peer with
  | v4 ip => simp
  | v6 ip => simp

end Parse

/-- The address check lets only addresses through that the string allows. -/
def FailsClosed (adminAllowCidr : String) : Prop :=
  ∀ peer, ipInCidr peer (adminCidrs (some adminAllowCidr)) = true → Allows adminAllowCidr peer

/-- The allowlist fails closed exactly when one of its items is a CIDR: the other items
are dropped, and a list without items means no restriction. -/
theorem failsClosed_iff (adminAllowCidr : String) :
    FailsClosed adminAllowCidr ↔
      ∃ item ∈ splitOn ',' adminAllowCidr.toList, ∃ net prefixLen,
        IsCidr (trim item) net prefixLen := by
  constructor
  · intro hclosed
    by_contra hnone
    have hempty : adminCidrs (some adminAllowCidr) = [] := by
      apply List.eq_nil_iff_forall_not_mem.mpr
      intro cidr hcidr
      obtain ⟨item, hitem, net, prefixLen, hvalid, -⟩ := mem_adminCidrs_iff.mp hcidr
      exact hnone ⟨item, hitem, net, prefixLen, hvalid⟩
    obtain ⟨item, hitem, net, prefixLen, ip, hvalid, -⟩ :=
      hclosed documentationIp (by simp [hempty, ipInCidr])
    exact hnone ⟨item, hitem, net, prefixLen, hvalid⟩
  · rintro ⟨item, hitem, net, prefixLen, hvalid⟩ peer hpeer
    have hmem : Cidr.ofPrefix net prefixLen ∈ adminCidrs (some adminAllowCidr) :=
      mem_adminCidrs_iff.mpr ⟨item, hitem, net, prefixLen, hvalid, rfl⟩
    obtain ⟨ip, rfl, cidr, hcidr, hmatch⟩ := (ipInCidr_iff (List.ne_nil_of_mem hmem)).mp hpeer
    obtain ⟨item', hitem', net', prefixLen', hvalid', rfl⟩ := mem_adminCidrs_iff.mp hcidr
    exact ⟨item', hitem', net', prefixLen', ip, hvalid', rfl,
      (and_prefixMask_eq_iff hvalid'.le).mp hmatch⟩

/-- One mistyped prefix length, and everybody is admitted. -/
theorem adminAllowlist_opens :
    (∃ item ∈ splitOn ',' "10.0.0.0/33".toList, trim item ≠ []) ∧
    ipInCidr documentationIp (adminCidrs (some "10.0.0.0/33")) = true ∧
    ¬ Allows "10.0.0.0/33" documentationIp := by
  have hnone : adminCidrs (some "10.0.0.0/33") = [] := by decide +kernel
  refine ⟨⟨"10.0.0.0/33".toList, by decide +kernel, by decide +kernel⟩, ?_, ?_⟩
  · rw [hnone]
    rfl
  · rintro ⟨item, hitem, net, prefixLen, ip, hvalid, -⟩
    have hmem : Cidr.ofPrefix net prefixLen ∈ adminCidrs (some "10.0.0.0/33") :=
      mem_adminCidrs_iff.mpr ⟨item, hitem, net, prefixLen, hvalid, rfl⟩
    simp [hnone] at hmem

end Seamless.Relay
