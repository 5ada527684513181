import Seamless.Relay.HeaderLines

/-!
The lines that the relay inserts into a request head, and what they leave as it was: all
bytes of the head, whether it is text, and everything that the parsers find in it.
-/

namespace Seamless.Relay

open Seamless.Common
open Seamless.Library.NetAddr
open Seamless.Library.Text

def scheme (isHttps : Bool) : String := if isHttps then "https" else "http"

/-- A header line of printable ASCII. -/
structure IsHeaderLine (line : List UInt8) : Prop where
  field : ∃ name value, line = name ++ 58 :: value ∧ name ≠ [] ∧ 58 ∉ name
  printable : ∀ b ∈ line, 32 ≤ b ∧ b < 127

/-- The block that is inserted for a peer. -/
def injectedBlock (ip : IpAddr) (isHttps : Bool) : List UInt8 :=
  utf8 (forwardingLines ip.toString isHttps)

def injectedFields (ip : IpAddr) (isHttps : Bool) : List (List Char × List Char) :=
  [("X-Forwarded-For".toList, ip.text), ("X-Real-IP".toList, ip.text),
    ("X-Forwarded-Proto".toList, (scheme isHttps).toList)]

def injectedLines (ip : IpAddr) (isHttps : Bool) : List (List Char) :=
  (injectedFields ip isHttps).map fun field => field.1 ++ ':' :: ' ' :: field.2

/-- What the insertion leaves as it was. -/
structure InjectionPreserves (head : List UInt8) (ip : IpAddr) (isHttps : Bool) : Prop where
  unchanged : windowPosition crlf head = none →
    injectForwardingHeaders head ip.toString isHttps = head
  inserted : ∀ i, windowPosition crlf head = some i →
    injectForwardingHeaders head ip.toString isHttps =
      head.take (i + 2) ++ injectedBlock ip isHttps ++ head.drop (i + 2)
  removed : ∀ i, windowPosition crlf head = some i →
    (injectForwardingHeaders head ip.toString isHttps).take (i + 2) ++
      (injectForwardingHeaders head ip.toString isHttps).drop
        (i + 2 + (injectedBlock ip isHttps).length) = head
  text : (fromUtf8 (injectForwardingHeaders head ip.toString isHttps)).isSome =
    (fromUtf8 head).isSome
  requestLine : parseRequestLine (injectForwardingHeaders head ip.toString isHttps) =
    parseRequestLine head
  host : parseHostHeader (injectForwardingHeaders head ip.toString isHttps) =
    parseHostHeader head
  contentLength : parseContentLength (injectForwardingHeaders head ip.toString isHttps) =
    parseContentLength head
  websocket : isWebsocketUpgrade (injectForwardingHeaders head ip.toString isHttps) =
    isWebsocketUpgrade head

section Block

variable {ip : IpAddr} {isHttps : Bool}

theorem toList_forwardingLines (ip : IpAddr) (isHttps : Bool) :
    (forwardingLines ip.toString isHttps).toList =
      (injectedLines ip isHttps).flatMap (· ++ ['\r', '\n']) := by
  unfold forwardingLines injectedLines injectedFields IpAddr.toString scheme
  dsimp only
  generalize ip.text = address
  generalize (if isHttps = true then "https" else "http") = proto
  simp

theorem printable_of_mem_text {c : Char} (h : c ∈ ip.text) : 32 ≤ c.toNat ∧ c.toNat < 127 := by
  have hbounds := isAddressChar_bounds (IpAddr.isAddressChar_of_mem h)
  omega

theorem fieldName_of_mem_injectedFields {field : List Char × List Char}
    (h : field ∈ injectedFields ip isHttps) : field.1 ∈ ["X-Forwarded-For".toList,
      "X-Real-IP".toList, "X-Forwarded-Proto".toList] := by
  simp only [injectedFields, List.mem_cons, List.not_mem_nil, or_false] at h
  rcases h with rfl | rfl | rfl <;> simp

theorem printable_of_all {l : List Char}
    (h : l.all (fun c => 32 ≤ c.toNat ∧ c.toNat < 127) = true) :
    ∀ c ∈ l, 32 ≤ c.toNat ∧ c.toNat < 127 := by
  simpa only [List.all_eq_true, decide_eq_true_eq] using h

theorem printable_of_mem_injectedFields {field : List Char × List Char}
    (h : field ∈ injectedFields ip isHttps) :
    field.1 ≠ [] ∧ ':' ∉ field.1 ∧ (∀ c ∈ field.1, 32 ≤ c.toNat ∧ c.toNat < 127) ∧
      ∀ c ∈ field.2, 32 ≤ c.toNat ∧ c.toNat < 127 := by
  have hnames : ∀ name ∈ ["X-Forwarded-For".toList, "X-Real-IP".toList,
      "X-Forwarded-Proto".toList], name ≠ [] ∧ ':' ∉ name ∧
        name.all (fun c => 32 ≤ c.toNat ∧ c.toNat < 127) = true := by decide
  obtain ⟨hne, hcolon, hname⟩ := hnames field.1 (fieldName_of_mem_injectedFields h)
  refine ⟨hne, hcolon, printable_of_all hname, ?_⟩
  simp only [injectedFields, List.mem_cons, List.not_mem_nil, or_false] at h
  rcases h with rfl | rfl | rfl
  · exact fun c hc => printable_of_mem_text hc
  · exact fun c hc => printable_of_mem_text hc
  · cases isHttps with
    | true => exact printable_of_all (by decide)
    | false => exact printable_of_all (by decide)

theorem printable_of_mem_injectedLines {line : List Char} (h : line ∈ injectedLines ip isHttps)
    {c : Char} (hc : c ∈ line) : 32 ≤ c.toNat ∧ c.toNat < 127 := by
  obtain ⟨field, hfield, rfl⟩ := List.mem_map.mp h
  obtain ⟨-, -, hname, hvalue⟩ := printable_of_mem_injectedFields hfield
  simp only [List.mem_append, List.mem_cons] at hc
  rcases hc with hc | rfl | rfl | hc
  · exact hname c hc
  · decide
  · decide
  · exact hvalue c hc

theorem injectedLines_no_break {line : List Char} (h : line ∈ injectedLines ip isHttps) :
    ¬ ['\r', '\n'] <:+: line := by
  intro hin
  have hreturn : '\r' ∈ line := hin.subset (by simp)
  have hprintable := printable_of_mem_injectedLines h hreturn
  exact absurd hprintable.1 (by decide)

theorem splitCrlf_forwardingLines (ip : IpAddr) (isHttps : Bool) (t : String) :
    splitCrlf (forwardingLines ip.toString isHttps ++ t).toList =
      injectedLines ip isHttps ++ splitCrlf t.toList := by
  rw [String.toList_append, toList_forwardingLines]
  exact splitCrlf_lines (fun line hline => injectedLines_no_break hline) t.toList

theorem toNat_byte {c : Char} (h : 32 ≤ c.toNat ∧ c.toNat < 127) :
    (UInt8.ofNat c.toNat).toNat = c.toNat :=
  UInt8.toNat_ofNat_of_lt' (h.2.trans (by decide))

theorem isHeaderLine_of_mem_injectedLines {line : List Char}
    (h : line ∈ injectedLines ip isHttps) :
    IsHeaderLine (line.map fun c => UInt8.ofNat c.toNat) := by
  constructor
  · obtain ⟨field, hfield, rfl⟩ := List.mem_map.mp h
    obtain ⟨hne, hcolon, hname, -⟩ := printable_of_mem_injectedFields hfield
    refine ⟨field.1.map fun c => UInt8.ofNat c.toNat,
      (' ' :: field.2).map fun c => UInt8.ofNat c.toNat, ?_, by simpa using hne, ?_⟩
    · rw [List.map_append, List.map_cons]
      rfl
    · intro hmem
      obtain ⟨c, hc, hcode⟩ := List.mem_map.mp hmem
      have hcode' : c.toNat = 58 := by
        rw [← toNat_byte (hname c hc), hcode]
        rfl
      apply hcolon
      rwa [← Char.toNat_inj.mp (hcode'.trans (by rfl : 58 = ':'.toNat))]
  · intro b hb
    obtain ⟨c, hc, rfl⟩ := List.mem_map.mp hb
    have hprintable := printable_of_mem_injectedLines h hc
    rw [UInt8.le_iff_toNat_le, UInt8.lt_iff_toNat_lt, toNat_byte hprintable]
    exact hprintable

theorem injectedBlock_eq (ip : IpAddr) (isHttps : Bool) : injectedBlock ip isHttps =
    ((injectedLines ip isHttps).map (List.map fun c => UInt8.ofNat c.toNat)).flatMap
      (· ++ crlf) := by
  have hascii : ∀ c ∈ (forwardingLines ip.toString isHttps).toList, c.toNat < 128 := by
    rw [toList_forwardingLines]
    intro c hc
    obtain ⟨line, hline, hc⟩ := List.mem_flatMap.mp hc
    rcases List.mem_append.mp hc with hc | hc
    · have hprintable := printable_of_mem_injectedLines hline hc
      omega
    · simp only [List.mem_cons, List.not_mem_nil, or_false] at hc
      rcases hc with rfl | rfl <;> decide
  rw [injectedBlock, utf8_eq_flatMap, encoded_of_ascii hascii, toList_forwardingLines,
    List.map_flatMap, List.flatMap_map]
  apply List.flatMap_congr
  intro line _
  rw [List.map_append]
  rfl

theorem injectedBlock_lines (ip : IpAddr) (isHttps : Bool) :
    ∃ lines : List (List UInt8), lines.length = 3 ∧ (∀ line ∈ lines, IsHeaderLine line) ∧
      injectedBlock ip isHttps = lines.flatMap (· ++ crlf) := by
  refine ⟨_, ?_, ?_, injectedBlock_eq ip isHttps⟩
  · simp [injectedLines, injectedFields]
  · intro line hline
    obtain ⟨chars, hchars, rfl⟩ := List.mem_map.mp hline
    exact isHeaderLine_of_mem_injectedLines hchars

end Block

section Splice

variable {head : List UInt8} {ip : IpAddr} {isHttps : Bool} {i : Nat}

theorem crlf_ne_nil : crlf ≠ [] := by simp [crlf]

theorem injectForwardingHeaders_of_none (h : windowPosition crlf head = none) (peerIp : String)
    (isHttps : Bool) : injectForwardingHeaders head peerIp isHttps = head := by
  rw [injectForwardingHeaders, requestLineEnd, h]
  rfl

theorem injectForwardingHeaders_of_some (h : windowPosition crlf head = some i) :
    injectForwardingHeaders head ip.toString isHttps =
      head.take (i + 2) ++ injectedBlock ip isHttps ++ head.drop (i + 2) := by
  rw [injectForwardingHeaders, requestLineEnd, h]
  rfl

theorem take_requestLine (h : windowPosition crlf head = some i) :
    head.take (i + 2) = head.take i ++ crlf := by
  obtain ⟨rest, hrest⟩ := windowPosition_spec h
  rw [List.take_add, ← hrest]
  rfl

theorem texts_of_injection (ip : IpAddr) (isHttps : Bool)
    (h : windowPosition crlf head = some i) :
    (fromUtf8 head = none ∧ fromUtf8 (injectForwardingHeaders head ip.toString isHttps) = none) ∨
    ∃ line rest, utf8 line = head.take i ∧ fromUtf8 head = some (line ++ "\r\n" ++ rest) ∧
      fromUtf8 (injectForwardingHeaders head ip.toString isHttps) =
        some (line ++ "\r\n" ++ (forwardingLines ip.toString isHttps ++ rest)) := by
  have hsplit : head = head.take i ++ crlf ++ head.drop (i + 2) := by
    rw [← take_requestLine h, List.take_append_drop]
  have hinjected : injectForwardingHeaders head ip.toString isHttps =
      head.take i ++ crlf ++ (injectedBlock ip isHttps ++ head.drop (i + 2)) := by
    rw [injectForwardingHeaders_of_some h, take_requestLine h, List.append_assoc]
  cases hhead : fromUtf8 head with
  | some s =>
      right
      rw [hsplit] at hhead
      obtain ⟨line, rest, rfl, hline, hrest⟩ := utf8_cut_crlf (utf8_of_fromUtf8 hhead)
      refine ⟨line, rest, hline, rfl, ?_⟩
      rw [hinjected, ← hline, ← hrest, ← utf8_crlf, injectedBlock, ← utf8_append, ← utf8_append,
        ← utf8_append, fromUtf8_utf8]
  | none =>
      left
      refine ⟨rfl, ?_⟩
      apply Option.eq_none_iff_forall_ne_some.mpr
      intro s hs
      rw [hinjected] at hs
      obtain ⟨line, more, -, hline, hmore⟩ := utf8_cut_crlf (utf8_of_fromUtf8 hs)
      obtain ⟨block, hblock⟩ : ∃ block, injectedBlock ip isHttps = block ++ crlf := by
        obtain ⟨lines, hthree, -, hlines⟩ := injectedBlock_lines ip isHttps
        rcases lines.eq_nil_or_concat with rfl | ⟨front, last, rfl⟩
        · simp at hthree
        · rw [List.concat_eq_append, List.flatMap_append, List.flatMap_singleton,
            ← List.append_assoc] at hlines
          exact ⟨_, hlines⟩
      rw [hblock] at hmore
      obtain ⟨-, rest, -, -, hrest⟩ := utf8_cut_crlf hmore
      rw [hsplit, ← hline, ← hrest, ← utf8_crlf, ← utf8_append, ← utf8_append,
        fromUtf8_utf8] at hhead
      cases hhead

theorem filterMap_injectedLines (ip : IpAddr) (isHttps : Bool) (name : String) :
    (injectedLines ip isHttps).filterMap (namedValue name) =
      (injectedFields ip isHttps).filterMap fun field =>
        if eqIgnoreAsciiCase field.1 name.toList then some (' ' :: field.2) else none := by
  rw [injectedLines, List.filterMap_map]
  apply List.filterMap_congr
  intro field hfield
  obtain ⟨-, hcolon, -⟩ := printable_of_mem_injectedFields hfield
  exact namedValue_field hcolon name

theorem headerValues_injected (name : String) (line rest : String) :
    headerValues name (line ++ "\r\n" ++ (forwardingLines ip.toString isHttps ++ rest)).toList =
      headerValues name line.toList ++ ((injectedLines ip isHttps).filterMap (namedValue name) ++
        headerValues name rest.toList) := by
  rw [headerValues_crlf, headerValues, headerValues, headerValues, splitCrlf_forwardingLines,
    List.filterMap_append]

theorem headerValues_of_injection (name : String)
    (hname : (injectedLines ip isHttps).filterMap (namedValue name) = []) (line rest : String) :
    headerValues name (line ++ "\r\n" ++ (forwardingLines ip.toString isHttps ++ rest)).toList =
      headerValues name (line ++ "\r\n" ++ rest).toList := by
  rw [headerValues_injected, hname, List.nil_append, headerValues_crlf]

theorem any_of_injection (p : List Char → Bool)
    (hp : ∀ line ∈ injectedLines ip isHttps, p line = false) (line rest : String) :
    (splitCrlf (line ++ "\r\n" ++ (forwardingLines ip.toString isHttps ++ rest)).toList).any p =
      (splitCrlf (line ++ "\r\n" ++ rest).toList).any p := by
  have hnone : (injectedLines ip isHttps).any p = false := by
    simpa using hp
  rw [any_splitCrlf_crlf, splitCrlf_forwardingLines, List.any_append, hnone, any_splitCrlf_crlf]
  rfl

theorem not_upgrade_of_mem_injectedLines {line : List Char}
    (h : line ∈ injectedLines ip isHttps) :
    upgradesToWebsocket line = false ∧ upgradesConnection line = false := by
  have hnames : ∀ name ∈ ["X-Forwarded-For".toList, "X-Real-IP".toList,
      "X-Forwarded-Proto".toList], eqIgnoreAsciiCase (trim name) "upgrade".toList = false ∧
        eqIgnoreAsciiCase (trim name) "connection".toList = false := by decide +kernel
  obtain ⟨field, hfield, rfl⟩ := List.mem_map.mp h
  obtain ⟨-, hcolon, -⟩ := printable_of_mem_injectedFields hfield
  obtain ⟨hupgrade, hconnection⟩ := hnames field.1 (fieldName_of_mem_injectedFields hfield)
  rw [upgradesToWebsocket, upgradesConnection, splitAt_eq_some_iff.mpr ⟨rfl, hcolon⟩]
  dsimp only
  rw [hupgrade, hconnection]
  exact ⟨rfl, rfl⟩

theorem filterMap_injectedLines_of_parsed (name : String)
    (hname : name = "host" ∨ name = "content-length") :
    (injectedLines ip isHttps).filterMap (namedValue name) = [] := by
  rw [filterMap_injectedLines, List.filterMap_eq_nil_iff]
  intro field hfield
  have hnames : ∀ name ∈ ["X-Forwarded-For".toList, "X-Real-IP".toList,
      "X-Forwarded-Proto".toList], eqIgnoreAsciiCase name "host".toList = false ∧
        eqIgnoreAsciiCase name "content-length".toList = false := by decide
  obtain ⟨hhost, hlength⟩ := hnames field.1 (fieldName_of_mem_injectedFields hfield)
  rcases hname with rfl | rfl
  · rw [hhost]
    rfl
  · rw [hlength]
    rfl

theorem parsers_of_injection (ip : IpAddr) (isHttps : Bool)
    (h : windowPosition crlf head = some i) :
    parseRequestLine (injectForwardingHeaders head ip.toString isHttps) = parseRequestLine head ∧
    parseHostHeader (injectForwardingHeaders head ip.toString isHttps) = parseHostHeader head ∧
    parseContentLength (injectForwardingHeaders head ip.toString isHttps) =
      parseContentLength head ∧
    isWebsocketUpgrade (injectForwardingHeaders head ip.toString isHttps) =
      isWebsocketUpgrade head := by
  rcases texts_of_injection ip isHttps h with
    ⟨hhead, hinjected⟩ | ⟨line, rest, -, hhead, hinjected⟩
  · obtain ⟨hhost, hlength, hwebsocket, hline⟩ := parsers_of_not_text hhead
    obtain ⟨hhost', hlength', hwebsocket', hline'⟩ := parsers_of_not_text hinjected
    rw [hhost, hlength, hwebsocket, hline, hhost', hlength', hwebsocket', hline']
    simp
  · refine ⟨?_, ?_, ?_, ?_⟩
    · obtain ⟨first, hfirst, hparse⟩ := parseRequestLine_of_text hhead
      obtain ⟨first', hfirst', hparse'⟩ := parseRequestLine_of_text hinjected
      rw [head?_splitCrlf_crlf] at hfirst hfirst'
      rw [hfirst] at hfirst'
      rw [hparse, hparse', Option.some.inj hfirst']
    · rw [parseHostHeader_of_text hinjected, parseHostHeader_of_text hhead,
        headerValues_of_injection _ (filterMap_injectedLines_of_parsed _ (.inl rfl))]
    · rw [parseContentLength_of_text hinjected, parseContentLength_of_text hhead,
        headerValues_of_injection _ (filterMap_injectedLines_of_parsed _ (.inr rfl))]
    · rw [isWebsocketUpgrade_of_text hinjected, isWebsocketUpgrade_of_text hhead,
        any_of_injection _ fun line hline => (not_upgrade_of_mem_injectedLines hline).1,
        any_of_injection _ fun line hline => (not_upgrade_of_mem_injectedLines hline).2]

/-- Header injection leaves the request as it was. -/
theorem injectForwardingHeaders_preserves (head : List UInt8) (ip : IpAddr) (isHttps : Bool) :
    InjectionPreserves head ip isHttps ∧
      ∃ lines : List (List UInt8), lines.length = 3 ∧ (∀ line ∈ lines, IsHeaderLine line) ∧
        injectedBlock ip isHttps = lines.flatMap (· ++ crlf) := by
  refine ⟨?_, injectedBlock_lines ip isHttps⟩
  cases hline : windowPosition crlf head with
  | none =>
      have hsame := injectForwardingHeaders_of_none hline ip.toString isHttps
      constructor <;> simp [hsame, hline]
  | some i =>
      obtain ⟨hrequest, hhost, hlength, hwebsocket⟩ :=
        parsers_of_injection ip isHttps hline
      have hfits : i + 2 ≤ head.length := (windowPosition_length hline).resolve_right crlf_ne_nil
      refine ⟨by simp [hline], ?_, ?_, ?_, hrequest, hhost, hlength, hwebsocket⟩
      · intro j hj
        exact injectForwardingHeaders_of_some hj
      · intro j hj
        obtain rfl : i = j := Option.some.inj (hline.symm.trans hj)
        have hfirst : (head.take (i + 2)).length = i + 2 := by simp [hfits]
        rw [injectForwardingHeaders_of_some hline, List.append_assoc,
          List.take_left' hfirst, ← List.append_assoc, List.drop_left' (by simp [hfirst]),
          List.take_append_drop]
      · rcases texts_of_injection ip isHttps hline with
          ⟨hhead, hinjected⟩ | ⟨line, rest, -, hhead, hinjected⟩
        · rw [hhead, hinjected]
        · rw [hhead, hinjected]
          rfl

end Splice

end Seamless.Relay
