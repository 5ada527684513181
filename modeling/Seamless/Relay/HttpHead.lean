import Seamless.Common.FrameCodec
import Seamless.Library.NetAddr
import Seamless.Library.Text

/-!
The part of an HTTP/1.1 request that the public ingress looks at: the loop that
buffers the header block, the three header parsers, the lines it injects, and
the responses it writes by itself.
-/

namespace Seamless.Relay

open Seamless.Common
open Seamless.Library.ByteStream
open Seamless.Library.Text

def crlf : List UInt8 := [13, 10]

def blankLine : List UInt8 := [13, 10, 13, 10]

def maxHeadBytes : Nat := 64 * 1024

/-- How the buffering loop ended: the timer, or the value of the loop. -/
abbrev HeadRead := Option (Except IoErrorKind Bool)

/-- The buffering loop. The first argument is the number of reads that return
before the 30 s timer fires. -/
def readHead : Nat → List UInt8 → ByteSource → HeadRead × List UInt8 × ByteSource
  | 0, head, stream => (none, head, stream)
  | reads + 1, head, stream =>
      match stream.read 4096 with
      | (.error e, stream) => (some (.error e), head, stream)
      | (.ok bytes, stream) =>
          if bytes.length = 0 then (some (.ok false), head, stream)
          else
            let head := head ++ bytes
            if (windowPosition blankLine head).isSome then (some (.ok true), head, stream)
            else if maxHeadBytes < head.length then (some (.ok false), head, stream)
            else readHead reads head stream

/-- Whatever the loop ends with, buffer and remaining stream are the stream it
started from, and a complete head holds a blank line. -/
theorem readHead_spec {reads : Nat} {head head' : List UInt8} {stream stream' : ByteSource}
    {verdict : HeadRead} (h : readHead reads head stream = (verdict, head', stream')) :
    head' ++ stream'.content = head ++ stream.content ∧
      (verdict = some (.ok true) → (windowPosition blankLine head').isSome) := by
  induction reads generalizing head stream with
  | zero =>
      simp only [readHead, Prod.mk.injEq] at h
      obtain ⟨rfl, rfl, rfl⟩ := h
      simp
  | succ reads ih =>
      rw [readHead] at h
      split at h
      · rename_i e stream₁ hread
        simp only [Prod.mk.injEq] at h
        obtain ⟨rfl, rfl, rfl⟩ := h
        exact ⟨by rw [stream.content_of_read_error hread], by simp⟩
      · rename_i bytes stream₁ hread
        obtain ⟨hcontent, -⟩ := stream.read_content hread
        have hall : (head ++ bytes) ++ stream₁.content = head ++ stream.content := by
          rw [List.append_assoc, hcontent]
        split at h
        · rename_i hempty
          simp only [Prod.mk.injEq] at h
          obtain ⟨rfl, rfl, rfl⟩ := h
          rw [List.eq_nil_of_length_eq_zero hempty, List.append_nil] at hall
          exact ⟨hall, by simp⟩
        · dsimp only at h
          split at h
          · rename_i hblank
            simp only [Prod.mk.injEq] at h
            obtain ⟨rfl, rfl, rfl⟩ := h
            exact ⟨hall, fun _ => hblank⟩
          · split at h
            · simp only [Prod.mk.injEq] at h
              obtain ⟨rfl, rfl, rfl⟩ := h
              exact ⟨hall, by simp⟩
            · obtain ⟨hrest, hblank⟩ := ih h
              exact ⟨hrest.trans hall, hblank⟩

/-- The value of the first line whose name is `name`, up to case. -/
def headerValue (name : String) (text : List Char) : Option (List Char) :=
  (splitCrlf text).findSome? fun line =>
    match splitAt ':' line with
    | (key, some value) => if eqIgnoreAsciiCase key name.toList then some value else none
    | (_, none) => none

def parseContentLength (bytes : List UInt8) : Option UInt64 := do
  let s ← fromUtf8 bytes
  let value ← headerValue "content-length" s.toList
  parseU64 (trim value)

def parseHostHeader (bytes : List UInt8) : Option String := do
  let s ← fromUtf8 bytes
  let value ← headerValue "host" s.toList
  return String.ofList (trim value)

def parseRequestLine (bytes : List UInt8) : String × String :=
  match fromUtf8 bytes with
  | some s =>
      match splitCrlf s.toList with
      | line :: _ =>
          match splitAt ' ' line with
          | (method, some rest) => (String.ofList method, String.ofList (splitAt ' ' rest).1)
          | (method, none) => (String.ofList method, "/")
      | [] => ("?", "/")
  | none => ("?", "/")

def hostOnly (host : String) : String := String.ofList (splitAt ':' host.toList).1

def extractSubdomain (host base : String) : Option String :=
  (stripSuffix ('.' :: base.toList) (hostOnly host).toList).map String.ofList

/-- `none` when the URL names no host. -/
def parseUpstreamAddr (url : String) : Option String :=
  let stripped := trimStartMatches "http://".toList (trimStartMatches "https://".toList url.toList)
  let hostPort := (splitAt '/' stripped).1
  if hostPort.isEmpty then none
  else if containsChar ':' hostPort then some (String.ofList hostPort)
  else
    let defaultPort := if "https://".toList.isPrefixOf url.toList then "443" else "80"
    some (String.ofList hostPort ++ ":" ++ defaultPort)

def forwardingLines (peerIp : String) (isHttps : Bool) : String :=
  let proto := if isHttps then "https" else "http"
  "X-Forwarded-For: " ++ peerIp ++ "\r\nX-Real-IP: " ++ peerIp ++
    "\r\nX-Forwarded-Proto: " ++ proto ++ "\r\n"

def requestLineEnd (head : List UInt8) : Option Nat := (windowPosition crlf head).map (· + 2)

def injectForwardingHeaders (head : List UInt8) (peerIp : String) (isHttps : Bool) :
    List UInt8 :=
  match requestLineEnd head with
  | some position =>
      head.take position ++ utf8 (forwardingLines peerIp isHttps) ++ head.drop position
  | none => head

def hsts (isHttps : Bool) : String :=
  if isHttps then "Strict-Transport-Security: max-age=63072000; includeSubDomains\r\n" else ""

def errorResponse (status body : String) (isHttps : Bool) : String :=
  "HTTP/1.1 " ++ status ++ "\r\nContent-Length: " ++ toString (utf8 body).length ++
    "\r\nContent-Type: text/plain\r\n" ++ hsts isHttps ++ "Connection: close\r\n\r\n" ++ body

theorem headerValue_append {name : String} {text more value : List Char}
    (h : headerValue name (text ++ "\r\n".toList) = some value) :
    headerValue name (text ++ "\r\n".toList ++ more) = some value := by
  have hsplit : splitCrlf (text ++ "\r\n".toList ++ more) = splitCrlf text ++ splitCrlf more := by
    rw [List.append_assoc]
    exact splitCrlf_append text more
  have hend : splitCrlf (text ++ "\r\n".toList) = splitCrlf text ++ [[]] :=
    splitCrlf_append text []
  simp only [headerValue, hend, List.findSome?_append] at h
  simp only [headerValue, hsplit, List.findSome?_append]
  have hfirst := Option.or_eq_some_iff.mp h
  rcases hfirst with hfirst | ⟨-, hlast⟩
  · rw [hfirst]
    rfl
  · simp [splitAt] at hlast

theorem parseHostHeader_eq_some {bytes : List UInt8} {host : String} :
    parseHostHeader bytes = some host ↔ ∃ s value, fromUtf8 bytes = some s ∧
      headerValue "host" s.toList = some value ∧ String.ofList (trim value) = host := by
  simp [parseHostHeader, Option.bind_eq_some_iff]

theorem headerValue_of_append {name : String} {front more : List UInt8} {s t : String}
    {value : List Char} (hs : fromUtf8 (front ++ crlf) = some s)
    (ht : fromUtf8 (front ++ crlf ++ more) = some t)
    (h : headerValue name s.toList = some value) : headerValue name t.toList = some value := by
  have hutf8 := utf8_of_fromUtf8 hs
  obtain ⟨s₁, s₂, rfl, -, hbreak⟩ := utf8_split hutf8 (by simp [crlf]; decide)
  obtain rfl : s₂ = "\r\n" := utf8_injective (hbreak.trans (by decide))
  have hmore : utf8 t = utf8 (s₁ ++ "\r\n") ++ more := by
    rw [utf8_of_fromUtf8 ht, hutf8]
  obtain ⟨rest, hrest⟩ := toList_prefix_of_utf8 hmore
  rw [String.toList_append] at h hrest
  rw [← hrest, headerValue_append h]

theorem parseHostHeader_append {front more : List UInt8} {host host' : String}
    (h : parseHostHeader (front ++ crlf) = some host)
    (h' : parseHostHeader (front ++ crlf ++ more) = some host') : host' = host := by
  obtain ⟨s, value, hs, hvalue, rfl⟩ := parseHostHeader_eq_some.mp h
  obtain ⟨t, value', ht, hvalue', rfl⟩ := parseHostHeader_eq_some.mp h'
  rw [headerValue_of_append hs ht hvalue] at hvalue'
  rw [Option.some.inj hvalue']

theorem parseContentLength_eq_some {bytes : List UInt8} {cl : UInt64} :
    parseContentLength bytes = some cl ↔ ∃ s value, fromUtf8 bytes = some s ∧
      headerValue "content-length" s.toList = some value ∧ parseU64 (trim value) = some cl := by
  simp [parseContentLength, Option.bind_eq_some_iff]

theorem parseContentLength_append {front more : List UInt8} {cl : UInt64} {host : String}
    (h : parseContentLength (front ++ crlf) = some cl)
    (hhost : parseHostHeader (front ++ crlf ++ more) = some host) :
    parseContentLength (front ++ crlf ++ more) = some cl := by
  obtain ⟨s, value, hs, hvalue, hparse⟩ := parseContentLength_eq_some.mp h
  obtain ⟨t, -, ht, -, -⟩ := parseHostHeader_eq_some.mp hhost
  exact parseContentLength_eq_some.mpr
    ⟨t, value, ht, headerValue_of_append hs ht hvalue, hparse⟩

end Seamless.Relay
