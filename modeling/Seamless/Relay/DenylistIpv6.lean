import Seamless.Relay.CidrMatching
import Seamless.Library.Ipv6

/-!
IPv6 in the deny list. The parser of its lines knows dotted quads only, so that a line with an
IPv6 address has no effect, also where the documentation gives it the effect of an IPv4 line.
The addresses of peers are converted by a function that takes both forms of an embedded IPv4
address, not the mapped one only.
-/

namespace Seamless.Relay

open Seamless.Library
open Seamless.Library.NetAddr
open Seamless.Library.Text

/-- The line is an entry of the deny list with the address in its network. -/
def LineCovers (line : List Char) (ip : Ipv4Addr) : Prop :=
  trim line ≠ [] ∧ (trim line).head? ≠ some '#' ∧ CoveredBy (Names id trim) (trim line) ip

/-- `item` is `::ffff:a.b.c.d/(96+p)`, with the network `a.b.c.d/p`. -/
structure IsMappedCidr (item : List Char) (net : Ipv4Addr) (prefixLen : Nat) : Prop where
  text : ∃ digits, item = "::ffff:".toList ++ net.text ++ '/' :: digits ∧
    IsNumeral digits (96 + prefixLen)
  le : prefixLen ≤ 32

/-- What stands before the slash, if there is one, is an IPv6 address. -/
def IsIpv6Line (item : List Char) : Prop :=
  ∃ ip, parseIpv6Addr (trim (splitAt '/' item).1) = some ip

/-- Two files deny the same peers. -/
def SameEffect (text text' : String) : Prop :=
  ∀ peer, isDenied (denylistEntries text) peer = isDenied (denylistEntries text') peer

/-- IPv6 as the deny list documents it: mapped addresses are denied with the address that they
hold and other addresses are not, a mapped line can be replaced by its IPv4 line, and other
IPv6 lines can be left out. -/
structure AsDocumented (text : String) (v : Ipv6Addr) : Prop where
  address : isDenied (denylistEntries text) (.v6 v) = true ↔
    ∃ ip : Ipv4Addr, v = ip.toIpv6Mapped ∧ isDenied (denylistEntries text) (.v4 ip) = true
  mappedLine : ∀ before line after net prefixLen, lines text.toList = before ++ line :: after →
    IsMappedCidr (trim line) net prefixLen →
      ∀ text' line', lines text'.toList = before ++ line' :: after →
        IsCidr (trim line') net prefixLen → SameEffect text text'
  otherLine : ∀ before line after, lines text.toList = before ++ line :: after →
    IsIpv6Line (trim line) → (∀ net prefixLen, ¬ IsMappedCidr (trim line) net prefixLen) →
      ∀ text', lines text'.toList = before ++ after → SameEffect text text'

section Lines

variable {line item : List Char} {net ip : Ipv4Addr} {prefixLen : Nat}
  {before after : List (List Char)} {text text' : String}

theorem coveredBy_iff {parse : List Char → Option Cidr}
    {names : List Char → Ipv4Addr → Nat → Prop} (h : ParsesNetworks parse names)
    (hnames : names item net prefixLen) :
    CoveredBy names item ip ↔ SameNetwork net prefixLen ip := by
  constructor
  · rintro ⟨net', prefixLen', hnames', hsame⟩
    obtain ⟨cidr, hparse, hnetwork⟩ := h.2 item net prefixLen hnames
    have hnetwork' := h.isNetwork hparse hnames'
    exact (hnetwork.contains ip).mp ((hnetwork'.contains ip).mpr hsame)
  · intro hsame
    exact ⟨net, prefixLen, hnames, hsame⟩

theorem not_lineCovers_of_colon (h : ':' ∈ trim (splitAt '/' (trim line)).1) :
    ¬ LineCovers line ip := by
  rintro ⟨-, -, net, prefixLen, ⟨⟨front, digits, hitem, hfront, hnet, -⟩, -⟩, -⟩
  rw [id] at hitem
  rw [splitAt_eq_some_iff.mpr ⟨hitem, hfront⟩, hnet] at h
  exact absurd h (net.notMem_text (by decide) (by decide))

theorem IsIpv6Line.not_lineCovers (h : IsIpv6Line (trim line)) : ¬ LineCovers line ip := by
  obtain ⟨v, hv⟩ := h
  exact not_lineCovers_of_colon (parseIpv6Addr_text hv).1

theorem IsMappedCidr.not_lineCovers (h : IsMappedCidr (trim line) net prefixLen) :
    ¬ LineCovers line ip := by
  obtain ⟨digits, htext, -⟩ := h.text
  have hchars : ∀ c ∈ "::ffff:".toList ++ net.text, isAddressChar c = true := by
    rw [List.forall_mem_append]
    exact ⟨by simp; decide, fun c hc => Ipv4Addr.isAddressChar_of_mem hc⟩
  have hslash : '/' ∉ "::ffff:".toList ++ net.text := by
    intro hslash
    exact absurd (hchars _ hslash) (by decide)
  apply not_lineCovers_of_colon
  rw [splitAt_eq_some_iff.mpr ⟨htext, hslash⟩, trim_of_isAddressChar hchars]
  simp

theorem IsCidr.names (h : IsCidr item net prefixLen) : Names id trim item net prefixLen := by
  obtain ⟨digits, htext, hdigits⟩ := h.text
  have htrim : trim net.text = net.text :=
    trim_of_isAddressChar fun c hc => Ipv4Addr.isAddressChar_of_mem hc
  exact ⟨⟨net.text, digits, htext, slash_notMem_text net, htrim, hdigits⟩, h.le⟩

theorem IsCidr.lineCovers_iff (h : IsCidr (trim line) net prefixLen) :
    LineCovers line ip ↔ SameNetwork net prefixLen ip := by
  obtain ⟨digits, htext, -⟩ := h.text
  have hparses : ParsesNetworks parseDenyCidr (Names id trim) :=
    parseCidrTrimming_parsesNetworks _ _
  rw [LineCovers, coveredBy_iff hparses h.names]
  constructor
  · rintro ⟨-, -, hsame⟩
    exact hsame
  · intro hsame
    refine ⟨by simp [htext], ?_, hsame⟩
    rw [htext, List.head?_append]
    cases hhead : net.text.head? with
    | none => simp
    | some c =>
        intro hcomment
        obtain rfl : c = '#' := Option.some.inj hcomment
        exact absurd (List.mem_of_mem_head? hhead) (net.notMem_text (by decide) (by decide))

theorem isDenied_iff_lineCovers {peer : IpAddr} : isDenied (denylistEntries text) peer = true ↔
    ∃ ip, ipv4Of peer = some ip ∧ ∃ line ∈ lines text.toList, LineCovers line ip :=
  isDenied_denylistEntries_iff

theorem isDenied_v4_iff : isDenied (denylistEntries text) (.v4 ip) = true ↔
    ∃ line ∈ lines text.toList, LineCovers line ip := by
  rw [isDenied_iff_lineCovers]
  constructor
  · rintro ⟨ip', heq, hcovered⟩
    obtain rfl : ip = ip' := Option.some.inj heq
    exact hcovered
  · intro hcovered
    exact ⟨ip, rfl, hcovered⟩

theorem sameEffect_iff : SameEffect text text' ↔
    ∀ ip, (∃ line ∈ lines text.toList, LineCovers line ip) ↔
      ∃ line ∈ lines text'.toList, LineCovers line ip := by
  constructor
  · intro h ip
    rw [← isDenied_v4_iff, ← isDenied_v4_iff, h]
  · intro h peer
    rw [Bool.eq_iff_iff, isDenied_iff_lineCovers, isDenied_iff_lineCovers]
    simp only [h]

theorem exists_mem_middle {covers : List Char → Prop} :
    (∃ l ∈ before ++ line :: after, covers l) ↔
      covers line ∨ ∃ other ∈ before ++ after, covers other := by
  simp only [List.perm_middle.mem_iff]
  exact List.exists_mem_cons_iff covers line (before ++ after)

end Lines

section Documented

variable {before after : List (List Char)} {line : List Char} {net : Ipv4Addr}
  {prefixLen : Nat} {text : String} {v : Ipv6Addr}

theorem address_iff : (isDenied (denylistEntries text) (.v6 v) = true ↔
      ∃ ip : Ipv4Addr, v = ip.toIpv6Mapped ∧ isDenied (denylistEntries text) (.v4 ip) = true) ↔
    ∀ ip : Ipv4Addr, v = ip.toIpv6Compatible → ∀ line ∈ lines text.toList,
      ¬ LineCovers line ip := by
  simp only [isDenied_v4_iff]
  rw [isDenied_iff_lineCovers]
  constructor
  · intro h ip hv line hline hcovers
    have hdenied : ∃ ip, v.toIpv4 = some ip ∧ ∃ line ∈ lines text.toList, LineCovers line ip :=
      ⟨ip, toIpv4_eq_some_iff.mpr (.inr hv), line, hline, hcovers⟩
    obtain ⟨ip', hmapped, -⟩ := h.mp hdenied
    exact toIpv6Mapped_ne_compatible ip' ip (hmapped.symm.trans hv)
  · intro h
    constructor
    · rintro ⟨ip, hip, line, hline, hcovers⟩
      rcases toIpv4_eq_some_iff.mp hip with hmapped | hcompatible
      · exact ⟨ip, hmapped, line, hline, hcovers⟩
      · exact absurd hcovers (h ip hcompatible line hline)
    · rintro ⟨ip, hmapped, hcovered⟩
      exact ⟨ip, toIpv4_eq_some_iff.mpr (.inl hmapped), hcovered⟩

theorem sameEffect_mapped_iff {text' : String} {line' : List Char}
    (htext : lines text.toList = before ++ line :: after)
    (hmapped : IsMappedCidr (trim line) net prefixLen)
    (htext' : lines text'.toList = before ++ line' :: after)
    (hcidr : IsCidr (trim line') net prefixLen) :
    SameEffect text text' ↔
      ∀ ip, SameNetwork net prefixLen ip → ∃ other ∈ before ++ after, LineCovers other ip := by
  rw [sameEffect_iff]
  apply forall_congr'
  intro ip
  rw [htext, htext', exists_mem_middle, exists_mem_middle, hcidr.lineCovers_iff,
    or_iff_right hmapped.not_lineCovers]
  constructor
  · intro h hsame
    exact h.mpr (.inl hsame)
  · intro h
    refine ⟨.inr, ?_⟩
    rintro (hsame | hother)
    · exact h hsame
    · exact hother

theorem sameEffect_of_ipv6Line {text' : String}
    (htext : lines text.toList = before ++ line :: after) (hline : IsIpv6Line (trim line))
    (htext' : lines text'.toList = before ++ after) : SameEffect text text' := by
  rw [sameEffect_iff]
  intro ip
  rw [htext, htext', exists_mem_middle, or_iff_right hline.not_lineCovers]

theorem exists_isCidr (net : Ipv4Addr) (hle : prefixLen ≤ 32) :
    ∃ line, '\n' ∉ line ∧ IsCidr (trim line) net prefixLen := by
  let line := net.text ++ '/' :: decimal prefixLen
  have hvisible : ∀ c ∈ line, isWhitespace c = false := by
    rw [List.forall_mem_append, List.forall_mem_cons]
    refine ⟨fun c hc => isWhitespace_of_isAddressChar (Ipv4Addr.isAddressChar_of_mem hc), ?_, ?_⟩
    · decide
    · exact fun c hc => isWhitespace_of_isAddressChar (isAddressChar_of_mem_decimal hc)
  have htrim : trim line = line := by
    simpa using @trim_between [] line [] (by simp) hvisible (by simp)
  refine ⟨line, ?_, ?_⟩
  · intro hnewline
    exact absurd (hvisible _ hnewline) (by decide)
  · rw [htrim]
    exact ⟨⟨decimal prefixLen, rfl, isNumeral_decimal prefixLen⟩, hle⟩

theorem exists_lines_replaced {line' : List Char}
    (htext : lines text.toList = before ++ line :: after) (hline' : '\n' ∉ line') :
    ∃ text', lines (String.toList text') = before ++ line' :: after := by
  have hold : ∀ l ∈ before ++ line :: after, '\n' ∉ l := by
    rw [← htext]
    exact fun l hl => newline_notMem_of_mem_lines hl
  have hlines : ∀ l ∈ before ++ line' :: after, '\n' ∉ l := by
    rw [List.forall_mem_append, List.forall_mem_cons] at hold ⊢
    exact ⟨hold.1, hline', hold.2.2⟩
  obtain ⟨s, hs⟩ := exists_lines hlines
  exact ⟨String.ofList s, by rw [String.toList_ofList, hs]⟩

end Documented

/-- The deny list treats IPv6 as documented exactly when the peer is not an address
`::a.b.c.d` that a line covers as `a.b.c.d`, and the network of every mapped line is covered by
the other lines. -/
theorem denylist_asDocumented_iff (text : String) (v : Ipv6Addr) :
    AsDocumented text v ↔
      (∀ ip : Ipv4Addr, v = ip.toIpv6Compatible → ∀ line ∈ lines text.toList,
        ¬ LineCovers line ip) ∧
      ∀ before line after net prefixLen, lines text.toList = before ++ line :: after →
        IsMappedCidr (trim line) net prefixLen → ∀ ip, SameNetwork net prefixLen ip →
          ∃ other ∈ before ++ after, LineCovers other ip := by
  constructor
  · intro h
    refine ⟨address_iff.mp h.address, ?_⟩
    intro before line after net prefixLen htext hmapped
    obtain ⟨line', hline', hcidr⟩ := exists_isCidr net hmapped.le
    obtain ⟨text', htext'⟩ := exists_lines_replaced htext hline'
    apply (sameEffect_mapped_iff htext hmapped htext' hcidr).mp
    exact h.mappedLine before line after net prefixLen htext hmapped text' line' htext' hcidr
  · rintro ⟨haddress, hmappedLines⟩
    refine ⟨address_iff.mpr haddress, ?_, ?_⟩
    · intro before line after net prefixLen htext hmapped text' line' htext' hcidr
      apply (sameEffect_mapped_iff htext hmapped htext' hcidr).mpr
      exact hmappedLines before line after net prefixLen htext hmapped
    · intro before line after htext hline _ text' htext'
      exact sameEffect_of_ipv6Line htext hline htext'

/-- `10.0.0.0/8` denies `::10.1.2.3`, and the mapped line of the documentation does not deny
`10.1.2.3`, which the IPv4 line denies. -/
theorem denylist_ipv6_slips :
    ¬ AsDocumented "10.0.0.0/8" (Ipv4Addr.toIpv6Compatible ⟨10, 1, 2, 3⟩) ∧
      ¬ AsDocumented "::ffff:10.0.0.0/104" (Ipv4Addr.toIpv6Mapped ⟨10, 1, 2, 3⟩) := by
  constructor
  · intro h
    obtain ⟨ip, hip, -⟩ := h.address.mp (by decide +kernel)
    exact toIpv6Mapped_ne_compatible ip _ hip.symm
  · intro h
    have hmapped : IsMappedCidr (trim "::ffff:10.0.0.0/104".toList) ⟨10, 0, 0, 0⟩ 8 :=
      ⟨⟨decimal (96 + 8), by decide +kernel, isNumeral_decimal (96 + 8)⟩, by decide⟩
    have hcidr : IsCidr (trim "10.0.0.0/8".toList) ⟨10, 0, 0, 0⟩ 8 :=
      ⟨⟨decimal 8, by decide +kernel, isNumeral_decimal 8⟩, by decide⟩
    have hsame := h.mappedLine [] _ [] _ _ (by decide +kernel) hmapped "10.0.0.0/8"
      "10.0.0.0/8".toList (by decide +kernel) hcidr (.v4 ⟨10, 1, 2, 3⟩)
    exact absurd hsame (by decide +kernel)

end Seamless.Relay
