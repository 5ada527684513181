import Seamless.Library.Ipv6
import Seamless.Relay.BodyLimit
import Seamless.Relay.HeaderInjection

/-!
The headers by which a backend learns who its client is. The relay writes its own lines in
front of all others and takes none out, so a client may add lines of the same names.
-/

namespace Seamless.Relay

open Seamless.Common
open Seamless.Library
open Seamless.Library.NetAddr
open Seamless.Library.ByteStream
open Seamless.Library.Text

/-- The header lines of a text: those between the request line and the first empty line. -/
def sectionLines (text : String) : List (List Char) :=
  (splitCrlf text.toList).tail.takeWhile fun line => !line.isEmpty

def sectionValues (name text : String) : List (List Char) :=
  (sectionLines text).filterMap (namedValue name)

/-- Every header line that tells the client's identity carries the relay's value. -/
structure Unforged (conn : Connection) (text : String) : Prop where
  realIp : ∀ value ∈ sectionValues "x-real-ip" text, trim value = conn.peer.ip.text
  proto : ∀ value ∈ sectionValues "x-forwarded-proto" text,
    trim value = (scheme conn.isHttps).toList

/-- The relay's own line comes first under each name, and behind it the client's lines
under that name as they were. -/
structure OwnLinesFirst (conn : Connection) (text forwarded : String) : Prop where
  realIp : sectionValues "x-real-ip" forwarded =
    (' ' :: conn.peer.ip.text) :: sectionValues "x-real-ip" text
  proto : sectionValues "x-forwarded-proto" forwarded =
    (' ' :: (scheme conn.isHttps).toList) :: sectionValues "x-forwarded-proto" text

/-- `head` is what was buffered of a connection that is passed on, and `forwarded` the head
that the target gets for it. -/
structure Forwards (ing : Ingress) (conn : Connection) (head : List UInt8)
    (text forwarded : String) : Prop where
  complete : ∃ rest, readHead conn.reads [] conn.stream = (some (.ok true), head, rest) ∧
    ∃ bytes, (ing.routeHttp conn).1.relayed conn = some bytes ∧
      bytes <+: utf8 forwarded ++ rest.content ∧
      (ing.Reliable conn → bytes = utf8 forwarded ++ rest.content)
  text_eq : fromUtf8 head = some text

section Section

variable {head : List UInt8} {i : Nat} {line rest : String} {ip : IpAddr} {isHttps : Bool}

theorem requestLine_no_break (h : windowPosition crlf head = some i)
    (hline : utf8 line = head.take i) : ¬ ['\r', '\n'] <:+: line.toList := by
  rintro ⟨front, back, hbreak⟩
  have hbytes : utf8 line = utf8 (String.ofList front) ++ crlf ++ utf8 (String.ofList back) := by
    rw [← utf8_crlf, ← utf8_append, ← utf8_append]
    congr 1
    rw [← String.toList_inj, ← hbreak]
    simp
  have hinfix : crlf <:+: head.take i := ⟨_, _, (hline ▸ hbytes).symm⟩
  cases hposition : windowPosition crlf (head.take i) with
  | none => exact (windowPosition_eq_none_iff crlf_ne_nil).mp hposition hinfix
  | some j =>
      have hfirst := windowPosition_append crlf_ne_nil hposition (head.drop i)
      rw [List.take_append_drop, h] at hfirst
      obtain rfl := Option.some.inj hfirst
      have hlength := (windowPosition_length hposition).resolve_right crlf_ne_nil
      have htwo : crlf.length = 2 := rfl
      rw [List.length_take] at hlength
      omega

theorem sectionLines_of_line (hline : ¬ ['\r', '\n'] <:+: line.toList) (rest : String) :
    sectionLines (line ++ "\r\n" ++ rest) =
      (splitCrlf rest.toList).takeWhile fun line => !line.isEmpty := by
  rw [sectionLines, splitCrlf_crlf, splitCrlf_line hline]
  rfl

theorem sectionValues_injected (hline : ¬ ['\r', '\n'] <:+: line.toList) (name rest : String) :
    sectionValues name (line ++ "\r\n" ++ (forwardingLines ip.toString isHttps ++ rest)) =
      (injectedLines ip isHttps).filterMap (namedValue name) ++
        sectionValues name (line ++ "\r\n" ++ rest) := by
  have hnonempty : ∀ injected ∈ injectedLines ip isHttps, (!injected.isEmpty) = true := by
    intro injected hinjected
    obtain ⟨field, -, rfl⟩ := List.mem_map.mp hinjected
    simp
  rw [sectionValues, sectionValues, sectionLines_of_line hline, sectionLines_of_line hline,
    splitCrlf_forwardingLines, List.takeWhile_append_of_pos hnonempty, List.filterMap_append]

theorem filterMap_injectedLines_realIp (ip : IpAddr) (isHttps : Bool) :
    (injectedLines ip isHttps).filterMap (namedValue "x-real-ip") = [' ' :: ip.text] := by
  rw [filterMap_injectedLines, injectedFields]
  have hfor : eqIgnoreAsciiCase "X-Forwarded-For".toList "x-real-ip".toList = false := by decide
  have hreal : eqIgnoreAsciiCase "X-Real-IP".toList "x-real-ip".toList = true := by decide
  have hproto : eqIgnoreAsciiCase "X-Forwarded-Proto".toList "x-real-ip".toList = false := by
    decide
  simp only [List.filterMap_cons, List.filterMap_nil, hfor, hreal, hproto, Bool.false_eq_true,
    if_false, if_true]

theorem filterMap_injectedLines_proto (ip : IpAddr) (isHttps : Bool) :
    (injectedLines ip isHttps).filterMap (namedValue "x-forwarded-proto") =
      [' ' :: (scheme isHttps).toList] := by
  rw [filterMap_injectedLines, injectedFields]
  have hfor : eqIgnoreAsciiCase "X-Forwarded-For".toList "x-forwarded-proto".toList = false := by
    decide
  have hreal : eqIgnoreAsciiCase "X-Real-IP".toList "x-forwarded-proto".toList = false := by
    decide
  have hproto : eqIgnoreAsciiCase "X-Forwarded-Proto".toList "x-forwarded-proto".toList = true := by
    decide
  simp only [List.filterMap_cons, List.filterMap_nil, hfor, hreal, hproto, Bool.false_eq_true,
    if_false, if_true]

theorem trim_space_text (ip : IpAddr) : trim (' ' :: ip.text) = ip.text := by
  have hspace : ∀ c ∈ ip.text, isWhitespace c = false := by
    intro c hc
    exact isWhitespace_of_isAddressChar (IpAddr.isAddressChar_of_mem hc)
  have htrim := @trim_between [' '] ip.text [] (by simp [isWhitespace]) hspace (by simp)
  rwa [List.append_nil] at htrim

theorem trim_space_scheme (isHttps : Bool) :
    trim (' ' :: (scheme isHttps).toList) = (scheme isHttps).toList := by
  cases isHttps with
  | true => decide +kernel
  | false => decide +kernel

end Section

section Forwarded

variable {ing : Ingress} {conn : Connection} {head : List UInt8} {text forwarded : String}

theorem OwnLinesFirst.unforged_iff (h : OwnLinesFirst conn text forwarded) :
    Unforged conn forwarded ↔ Unforged conn text := by
  have hrealIp := trim_space_text conn.peer.ip
  have hproto := trim_space_scheme conn.isHttps
  constructor
  · rintro ⟨hall, hall'⟩
    rw [h.realIp, List.forall_mem_cons] at hall
    rw [h.proto, List.forall_mem_cons] at hall'
    exact ⟨hall.2, hall'.2⟩
  · rintro ⟨hall, hall'⟩
    constructor
    · rw [h.realIp, List.forall_mem_cons]
      exact ⟨hrealIp, hall⟩
    · rw [h.proto, List.forall_mem_cons]
      exact ⟨hproto, hall'⟩

theorem ownLinesFirst_of_injection {i : Nat} (h : windowPosition crlf head = some i)
    {line : String} (hline : utf8 line = head.take i) (rest : String) (conn : Connection) :
    OwnLinesFirst conn (line ++ "\r\n" ++ rest) (line ++ "\r\n" ++
      (forwardingLines conn.peer.ip.toString conn.isHttps ++ rest)) := by
  have hbreak := requestLine_no_break h hline
  constructor
  · rw [sectionValues_injected hbreak, filterMap_injectedLines_realIp]
    rfl
  · rw [sectionValues_injected hbreak, filterMap_injectedLines_proto]
    rfl

theorem exists_requestLine (h : (windowPosition blankLine head).isSome) :
    ∃ i, windowPosition crlf head = some i := by
  obtain ⟨j, hj⟩ := Option.isSome_iff_exists.mp h
  cases hposition : windowPosition crlf head with
  | some i => exact ⟨i, rfl⟩
  | none =>
      exfalso
      apply (windowPosition_eq_none_iff crlf_ne_nil).mp hposition
      have hcrlf : crlf <:+: blankLine := ⟨[], crlf, rfl⟩
      exact hcrlf.trans ((windowPosition_spec hj).isInfix.trans (List.drop_suffix _ _).isInfix)

theorem Ingress.parseHostHeader_of_relayed {bytes : List UInt8} {rest : ByteSource}
    (h : (ing.routeHttp conn).1.relayed conn = some bytes)
    (hread : readHead conn.reads [] conn.stream = (some (.ok true), head, rest)) :
    ∃ host, parseHostHeader head = some host := by
  have hadmits : ing.admits conn = true := by
    rw [← relayed_isSome, h]
    rfl
  cases hhost : parseHostHeader head with
  | some host => exact ⟨host, rfl⟩
  | none => simp [admits, hread, admitsHead, hhost] at hadmits

/-- Whatever is passed on, the relay's own lines come first under the names of the
identity headers and the client's follow; so nothing is forged exactly where the client's
own lines carry the relay's values. -/
theorem forwarded_identity (ing : Ingress) (conn : Connection)
    (h : ((ing.routeHttp conn).1.relayed conn).isSome) :
    ∃ head text forwarded, Forwards ing conn head text forwarded ∧
      OwnLinesFirst conn text forwarded ∧ (Unforged conn forwarded ↔ Unforged conn text) := by
  obtain ⟨bytes, hbytes⟩ := Option.isSome_iff_exists.mp h
  obtain ⟨head, rest, hread, hsent, hreliable⟩ := Ingress.relayed_routeHttp hbytes
  obtain ⟨host, hhost⟩ := Ingress.parseHostHeader_of_relayed hbytes hread
  obtain ⟨i, hi⟩ := exists_requestLine ((readHead_spec hread).2 rfl)
  rcases texts_of_injection conn.peer.ip conn.isHttps hi with
    ⟨hhead, -⟩ | ⟨line, back, hline, hhead, hinjected⟩
  · rw [(parsers_of_not_text hhead).1] at hhost
    cases hhost
  · have hfirst := ownLinesFirst_of_injection hi hline back conn
    have hstream : forwardedStream conn head rest = utf8 (line ++ "\r\n" ++
        (forwardingLines conn.peer.ip.toString conn.isHttps ++ back)) ++ rest.content := by
      rw [forwardedStream, utf8_of_fromUtf8 hinjected]
    rw [hstream] at hsent hreliable
    exact ⟨head, _, _, ⟨⟨rest, hread, bytes, hbytes, hsent, hreliable⟩, hhead⟩, hfirst,
      hfirst.unforged_iff⟩

end Forwarded

/-- A client that says it is the relay's own host. -/
def claimsLoopback : Request where
  head := utf8 "GET / HTTP/1.1\r\nHost: a.example.com\r\nx-real-ip: 127.0.0.1\r\n\r\n"
  body := []
  blankLine_last := by decide +kernel

theorem forwarded_identity_plain :
    ∃ head text forwarded, Forwards twoTenants pipelined head text forwarded ∧
      OwnLinesFirst pipelined text forwarded ∧
      (Unforged pipelined forwarded ↔ Unforged pipelined text) :=
  forwarded_identity twoTenants pipelined (by decide +kernel)

/-- The target of a forged request gets the client's address behind the relay's. -/
theorem claimsLoopback_forwarded :
    (twoTenants.routeHttp (carrying [claimsLoopback])).1.relayed (carrying [claimsLoopback]) =
      some (injectForwardingHeaders claimsLoopback.head "198.51.100.7" false) ∧
    ∃ forwarded,
      fromUtf8 (injectForwardingHeaders claimsLoopback.head "198.51.100.7" false) =
        some forwarded ∧ ¬ Unforged (carrying [claimsLoopback]) forwarded := by
  refine ⟨by decide +kernel, "GET / HTTP/1.1\r\nX-Forwarded-For: 198.51.100.7\r\n" ++
    "X-Real-IP: 198.51.100.7\r\nX-Forwarded-Proto: http\r\n" ++
    "Host: a.example.com\r\nx-real-ip: 127.0.0.1\r\n\r\n", by decide +kernel, ?_⟩
  rintro ⟨hrealIp, -⟩
  have hforged := hrealIp " 127.0.0.1".toList (by decide +kernel)
  revert hforged
  decide +kernel

end Seamless.Relay
