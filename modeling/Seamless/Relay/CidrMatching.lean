import Seamless.Relay.ListFiles

/-!
The two parsers of CIDRs and the two lists that are filled from them. A list admits or
denies an address by its leading bits, whatever the host bits of its items are and in
whatever order the items come.
-/

namespace Seamless.Relay

open Seamless.Library
open Seamless.Library.NetAddr
open Seamless.Library.Text

/-- `32 - n` on `u32`, or `none` where the subtraction overflows. -/
def checkedSub32 (n : Nat) : Option Nat := if n ≤ 32 then some (32 - n) else none

/-- `bits << n` on `u32`, or `none` where the shift overflows. -/
def checkedShl (bits : BitVec 32) (n : Nat) : Option (BitVec 32) :=
  if n < 32 then some (bits <<< n) else none

/-- The mask of `parse_cidr` with every operation checked. -/
def checkedPrefixMask (prefixLen : Nat) : Option (BitVec 32) :=
  if prefixLen = 0 then some 0
  else (checkedSub32 prefixLen).bind (checkedShl (BitVec.allOnes 32))

/-- A text that a parser with this trimming takes for `net/prefixLen`. -/
structure Names (item address : List Char → List Char) (s : List Char) (net : Ipv4Addr)
    (prefixLen : Nat) : Prop where
  text : ∃ front digits, item s = front ++ '/' :: digits ∧ '/' ∉ front ∧
    address front = net.text ∧ IsNumeral digits prefixLen
  le : prefixLen ≤ 32

/-- The pair is the network of the first `prefixLen` bits of `net`, and computing it
overflows nowhere. -/
structure Cidr.IsNetwork (cidr : Cidr) (net : Ipv4Addr) (prefixLen : Nat) : Prop where
  shift : checkedPrefixMask prefixLen = some cidr.mask
  contains : ∀ ip, ip.toBits &&& cidr.mask = cidr.net ↔ SameNetwork net prefixLen ip

/-- The parser accepts the texts that name a CIDR, each as the network it names. -/
def ParsesNetworks (parse : List Char → Option Cidr)
    (names : List Char → Ipv4Addr → Nat → Prop) : Prop :=
  (∀ s cidr, parse s = some cidr → ∃ net prefixLen, names s net prefixLen) ∧
    ∀ s net prefixLen, names s net prefixLen →
      ∃ cidr, parse s = some cidr ∧ cidr.IsNetwork net prefixLen

/-- `s` names a network with the address in it. -/
def CoveredBy (names : List Char → Ipv4Addr → Nat → Prop) (s : List Char) (ip : Ipv4Addr) :
    Prop :=
  ∃ net prefixLen, names s net prefixLen ∧ SameNetwork net prefixLen ip

/-- The IPv4 address that `is_denied` looks up. -/
def ipv4Of : IpAddr → Option Ipv4Addr
  | .v4 ip => some ip
  | .v6 ip => ip.toIpv4

section Matching

variable {item address : List Char → List Char} {s : List Char} {cidr : Cidr}
  {net ip : Ipv4Addr} {prefixLen : Nat} {parse : List Char → Option Cidr}
  {names : List Char → Ipv4Addr → Nat → Prop}

theorem checkedPrefixMask_of_le (h : prefixLen ≤ 32) :
    checkedPrefixMask prefixLen = some (prefixMask prefixLen) := by
  unfold checkedPrefixMask prefixMask checkedSub32 checkedShl
  split
  · rfl
  · have hshift : 32 - prefixLen < 32 := by omega
    simp [hshift]

theorem ofPrefix_isNetwork (h : prefixLen ≤ 32) :
    (Cidr.ofPrefix net prefixLen).IsNetwork net prefixLen where
  shift := checkedPrefixMask_of_le h
  contains _ := and_prefixMask_eq_iff h

theorem parseCidrTrimming_iff_names : parseCidrTrimming item address s = some cidr ↔
    ∃ net prefixLen, Names item address s net prefixLen ∧ cidr = .ofPrefix net prefixLen := by
  rw [parseCidrTrimming_eq_some_iff]
  constructor
  · rintro ⟨front, digits, net, prefixLen, hitem, hfront, hnet, hdigits, hle, rfl⟩
    exact ⟨net, prefixLen, ⟨⟨front, digits, hitem, hfront, hnet, hdigits⟩, hle⟩, rfl⟩
  · rintro ⟨net, prefixLen, ⟨⟨front, digits, hitem, hfront, hnet, hdigits⟩, hle⟩, rfl⟩
    exact ⟨front, digits, net, prefixLen, hitem, hfront, hnet, hdigits, hle, rfl⟩

theorem parseCidrTrimming_parsesNetworks (item address : List Char → List Char) :
    ParsesNetworks (parseCidrTrimming item address) (Names item address) := by
  constructor
  · intro s cidr h
    obtain ⟨net, prefixLen, hnames, -⟩ := parseCidrTrimming_iff_names.mp h
    exact ⟨net, prefixLen, hnames⟩
  · intro s net prefixLen hnames
    exact ⟨.ofPrefix net prefixLen, parseCidrTrimming_iff_names.mpr ⟨net, prefixLen, hnames, rfl⟩,
      ofPrefix_isNetwork hnames.le⟩

theorem ParsesNetworks.isNetwork (h : ParsesNetworks parse names) (hparse : parse s = some cidr)
    (hnames : names s net prefixLen) : cidr.IsNetwork net prefixLen := by
  obtain ⟨cidr', hparse', hnetwork⟩ := h.2 s net prefixLen hnames
  rw [hparse] at hparse'
  obtain rfl : cidr = cidr' := Option.some.inj hparse'
  exact hnetwork

theorem exists_match_iff (h : ParsesNetworks parse names) (items : List (List Char)) :
    (∃ cidr ∈ items.filterMap parse, ip.toBits &&& cidr.mask = cidr.net) ↔
      ∃ item ∈ items, CoveredBy names item ip := by
  constructor
  · rintro ⟨cidr, hcidr, hmatch⟩
    obtain ⟨item, hitem, hparse⟩ := List.mem_filterMap.mp hcidr
    obtain ⟨net, prefixLen, hnames⟩ := h.1 item cidr hparse
    have hnetwork := h.isNetwork hparse hnames
    exact ⟨item, hitem, net, prefixLen, hnames, (hnetwork.contains ip).mp hmatch⟩
  · rintro ⟨item, hitem, net, prefixLen, hnames, hsame⟩
    obtain ⟨cidr, hparse, hnetwork⟩ := h.2 item net prefixLen hnames
    exact ⟨cidr, List.mem_filterMap.mpr ⟨item, hitem, hparse⟩, (hnetwork.contains ip).mpr hsame⟩

theorem toIpv4U32_eq (peer : IpAddr) : toIpv4U32 peer = (ipv4Of peer).map Ipv4Addr.toBits := by
  cases peer with
  | v4 ip => rfl
  | v6 ip => rfl

theorem isDenied_iff {entries : List Cidr} {peer : IpAddr} : isDenied entries peer = true ↔
    ∃ ip, ipv4Of peer = some ip ∧ ∃ cidr ∈ entries, ip.toBits &&& cidr.mask = cidr.net := by
  unfold isDenied
  rw [toIpv4U32_eq]
  cases hip : ipv4Of peer with
  | none => simp
  | some ip => simp

theorem mem_entryLines_iff {text : String} {line : List Char} : line ∈ entryLines trim text ↔
    ∃ raw ∈ lines text.toList, trim raw = line ∧ line ≠ [] ∧ line.head? ≠ some '#' := by
  unfold entryLines
  simp only [List.mem_filter, List.mem_map, Bool.not_eq_true', Bool.or_eq_false_iff,
    List.isEmpty_eq_false_iff, beq_eq_false_iff_ne]
  constructor
  · rintro ⟨⟨raw, hraw, heq⟩, hne, hcomment⟩
    exact ⟨raw, hraw, heq, hne, hcomment⟩
  · rintro ⟨raw, hraw, heq, hne, hcomment⟩
    exact ⟨⟨raw, hraw, heq⟩, hne, hcomment⟩

theorem isDenied_denylistEntries_iff {text : String} {peer : IpAddr} :
    isDenied (denylistEntries text) peer = true ↔
      ∃ ip, ipv4Of peer = some ip ∧ ∃ line ∈ lines text.toList, trim line ≠ [] ∧
        (trim line).head? ≠ some '#' ∧ CoveredBy (Names id trim) (trim line) ip := by
  have hdeny : ParsesNetworks parseDenyCidr (Names id trim) := parseCidrTrimming_parsesNetworks _ _
  rw [isDenied_iff]
  apply exists_congr
  intro ip
  apply and_congr_right
  intro _
  unfold denylistEntries
  rw [exists_match_iff hdeny]
  constructor
  · rintro ⟨line, hline, hcovered⟩
    obtain ⟨raw, hraw, rfl, hne, hcomment⟩ := mem_entryLines_iff.mp hline
    exact ⟨raw, hraw, hne, hcomment, hcovered⟩
  · rintro ⟨raw, hraw, hne, hcomment, hcovered⟩
    exact ⟨trim raw, mem_entryLines_iff.mpr ⟨raw, hraw, rfl, hne, hcomment⟩, hcovered⟩

end Matching

/-- Both parsers give prefix networks, a deny list denies what the lines of its text cover,
and an allowlist with an item admits what its items cover. -/
theorem cidrLists_match_prefixes :
    ParsesNetworks parseCidr (Names trim id) ∧ ParsesNetworks parseDenyCidr (Names id trim) ∧
    (∀ text peer, isDenied (denylistEntries text) peer = true ↔
      ∃ ip, ipv4Of peer = some ip ∧ ∃ line ∈ lines text.toList, trim line ≠ [] ∧
        (trim line).head? ≠ some '#' ∧ CoveredBy (Names id trim) (trim line) ip) ∧
    ∀ (items : List (List Char)) (ip : Ipv4Addr), items.filterMap parseCidr ≠ [] →
      (ipInCidr (.v4 ip) (items.filterMap parseCidr) = true ↔
        ∃ item ∈ items, CoveredBy (Names trim id) item ip) := by
  have hallow : ParsesNetworks parseCidr (Names trim id) := parseCidrTrimming_parsesNetworks _ _
  have hdeny : ParsesNetworks parseDenyCidr (Names id trim) := parseCidrTrimming_parsesNetworks _ _
  refine ⟨hallow, hdeny, ?_, ?_⟩
  · intro text peer
    exact isDenied_denylistEntries_iff
  · intro items ip hne
    rw [ipInCidr_iff hne, ← exists_match_iff hallow]
    constructor
    · rintro ⟨ip', heq, hmatch⟩
      obtain rfl : ip = ip' := by simpa using heq
      exact hmatch
    · intro hmatch
      exact ⟨ip, rfl, hmatch⟩

/-- An item with host bits, listed twice, admits its whole network. -/
theorem cidrLists_match_hostBits :
    ∃ item ∈ ["10.1.2.3/8".toList, "10.1.2.3/8".toList],
      CoveredBy (Names trim id) item ⟨10, 200, 0, 1⟩ := by
  obtain ⟨-, -, -, hallow⟩ := cidrLists_match_prefixes
  apply (hallow ["10.1.2.3/8".toList, "10.1.2.3/8".toList] ⟨10, 200, 0, 1⟩ (by decide +kernel)).mp
  decide +kernel

end Seamless.Relay
