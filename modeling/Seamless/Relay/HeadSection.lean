import Seamless.Relay.HeaderLines
import Seamless.Relay.HostRouting
import Seamless.Relay.TenantIsolation

/-!
What the bytes behind a header section do to the decisions about a request. The buffer
that `route_http` parses ends where the last read ended, so it may hold a part of the
body; the parsers take everything in it for header lines.
-/

namespace Seamless.Relay

open Seamless.Common
open Seamless.Library
open Seamless.Library.ByteStream
open Seamless.Library.Text

/-- What is decided about a request before anything is opened for it. -/
inductive Decision where
  -- 400
  | missingHost
  | healthy
  -- 413
  | tooLarge (cl : UInt64)
  | routed (host : String) (target : Target)

namespace Ingress

def decision (ing : Ingress) (head : List UInt8) : Decision :=
  match parseHostHeader head with
  | none => .missingHost
  | some host =>
      if isHealthCheck (parseRequestLine head) then .healthy
      else
        match ing.declaredTooLarge head with
        | some cl => .tooLarge cl
        | none => .routed host (ing.target host)

def carryOut (ing : Ingress) (conn : Connection) (head : List UInt8) (rest : ByteSource) :
    Decision → Outcome × TunnelMap
  | .missingHost =>
      (.responded (errorResponse "400 Bad Request" "missing Host: header\n" conn.isHttps),
        ing.tunnels)
  | .healthy => (.responded (ing.healthResponse conn.isHttps), ing.tunnels)
  | .tooLarge cl => (.responded (ing.tooLargeResponse cl conn.isHttps), ing.tunnels)
  | .routed host target => ing.routeTo conn host head rest target

theorem routeRequest_eq_carryOut (ing : Ingress) (conn : Connection) (head : List UInt8)
    (rest : ByteSource) :
    ing.routeRequest conn head rest = ing.carryOut conn head rest (ing.decision head) := by
  cases hhost : parseHostHeader head with
  | none => simp [routeRequest, decision, hhost, carryOut]
  | some host =>
      cases hhealth : isHealthCheck (parseRequestLine head) with
      | true => simp [routeRequest, decision, hhost, hhealth, carryOut]
      | false =>
          cases hsize : ing.declaredTooLarge head with
          | some cl => simp [routeRequest, decision, hhost, hhealth, hsize, carryOut]
          | none =>
              rw [routeRequest_eq hhost hhealth hsize]
              simp [decision, hhost, hhealth, hsize, carryOut]

end Ingress

/-- The parsers find in the buffer what they find in the header section, and so does
every decision. -/
structure HeadDecides (r : Request) : Prop where
  host : parseHostHeader r.bytes = parseHostHeader r.head
  contentLength : parseContentLength r.bytes = parseContentLength r.head
  websocket : isWebsocketUpgrade r.bytes = isWebsocketUpgrade r.head
  requestLine : parseRequestLine r.bytes = parseRequestLine r.head
  decision : ∀ ing : Ingress, ing.decision r.bytes = ing.decision r.head

/-- The first `Content-Length` line, if there is one, does not hold a `u64`. -/
def NoLength (text : String) : Prop :=
  ∀ value ∈ (headerValues "content-length" text.toList).head?, ∀ n < 2 ^ 64,
    ¬ IsNumeral (trim value) n

/-- The request line is what a request line is taken for when there is none. -/
def NoRequest (text : String) : Prop :=
  ∀ line ∈ (splitCrlf text.toList).head?,
    line = "?".toList ∨ line = "? /".toList ∨ "? / ".toList <+: line

def AsksForWebsocket (text : String) : Prop :=
  ∃ line ∈ splitCrlf text.toList, upgradesToWebsocket line = true

def AsksForUpgrade (text : String) : Prop :=
  ∃ line ∈ splitCrlf text.toList, upgradesConnection line = true

/-- A readable body adds no line that a parser would have to take from the head. -/
structure AddsNothing (head body : String) : Prop where
  host : headerValues "host" head.toList = [] → headerValues "host" body.toList = []
  contentLength : headerValues "content-length" head.toList = [] → NoLength body
  websocket : AsksForWebsocket head ∨ AsksForWebsocket body →
    AsksForUpgrade head ∨ AsksForUpgrade body → AsksForWebsocket head ∧ AsksForUpgrade head

/-- A header section without anything a parser looks for. -/
structure Bare (head : String) : Prop where
  host : headerValues "host" head.toList = []
  contentLength : NoLength head
  websocket : ¬ (AsksForWebsocket head ∧ AsksForUpgrade head)
  requestLine : NoRequest head

/-- The body goes unnoticed: behind a head that is no text, behind a bare one if it is
no text itself, and otherwise if it adds nothing. -/
def BodyUnnoticed (r : Request) : Prop :=
  ∀ head, fromUtf8 r.head = some head →
    (∀ body, fromUtf8 r.body = some body → AddsNothing head body) ∧
      (fromUtf8 r.body = none → Bare head)

section Request

variable {r : Request} {head body : String} {bytes : List UInt8}

theorem Request.fromUtf8_bytes (r : Request) :
    fromUtf8 r.bytes = (fromUtf8 r.head).bind fun s => (fromUtf8 r.body).map (s ++ ·) := by
  obtain ⟨front, hfront⟩ := r.ends_crlf
  rw [Request.bytes, hfront]
  exact fromUtf8_append_crlf front r.body

theorem Request.text_ends_crlf (h : fromUtf8 r.head = some head) :
    ∃ lines, head = lines ++ "\r\n" := by
  obtain ⟨front, hfront⟩ := r.ends_crlf
  have hutf8 : utf8 head = front ++ crlf ++ [] := by
    rw [utf8_of_fromUtf8 h, hfront, List.append_nil]
  obtain ⟨s₁, s₂, rfl, -, hs₂⟩ := utf8_cut_crlf hutf8
  obtain rfl : s₂ = "" := utf8_injective hs₂
  exact ⟨s₁, String.append_empty⟩

theorem parseContentLength_eq_none_iff (h : fromUtf8 bytes = some head) :
    parseContentLength bytes = none ↔ NoLength head := by
  rw [parseContentLength_of_text h, Option.bind_eq_none_iff]
  apply forall_congr'
  intro value
  apply forall_congr'
  intro _
  constructor
  · intro hnone n hn hnumeral
    have hsome : parseU64 (trim value) = some (UInt64.ofNat n) := by
      rw [parseU64_eq_some_iff, UInt64.toNat_ofNat_of_lt' hn]
      exact hnumeral
    rw [hnone] at hsome
    cases hsome
  · intro hnot
    apply Option.eq_none_iff_forall_ne_some.mpr
    intro n hn
    exact hnot n.toNat n.toNat_lt (parseU64_eq_some_iff.mp hn)

theorem isWebsocketUpgrade_iff (h : fromUtf8 bytes = some head) :
    isWebsocketUpgrade bytes = true ↔ AsksForWebsocket head ∧ AsksForUpgrade head := by
  rw [isWebsocketUpgrade_of_text h, Bool.and_eq_true, List.any_eq_true, List.any_eq_true]
  rfl

theorem splitAt_space_eq_iff {line : List Char} :
    ((splitAt ' ' line).1 = ['?'] ∧
      ((splitAt ' ' line).2.map fun rest => (splitAt ' ' rest).1).getD ['/'] = ['/']) ↔
      line = ['?'] ∨ line = ['?', ' ', '/'] ∨ ['?', ' ', '/', ' '] <+: line := by
  constructor
  · rintro ⟨hmethod, hpath⟩
    cases hrest : (splitAt ' ' line).2 with
    | none =>
        left
        rw [← hmethod]
        exact (splitAt_fst_of_none hrest).symm
    | some rest =>
        obtain ⟨rfl, -⟩ := splitAt_eq_some_iff.mp (Prod.ext hmethod hrest)
        rw [hrest, Option.map_some, Option.getD_some] at hpath
        cases hpath' : (splitAt ' ' rest).2 with
        | none =>
            right
            left
            rw [splitAt_fst_of_none hpath'] at hpath
            rw [hpath]
            rfl
        | some version =>
            obtain ⟨rfl, -⟩ := splitAt_eq_some_iff.mp (Prod.ext hpath hpath')
            right
            right
            exact ⟨version, rfl⟩
  · rintro (rfl | rfl | ⟨version, rfl⟩)
    · decide
    · decide
    · simp [splitAt]

theorem parseRequestLine_eq_default_iff (h : fromUtf8 bytes = some head) :
    parseRequestLine bytes = ("?", "/") ↔ NoRequest head := by
  obtain ⟨line, hline, hparse⟩ := parseRequestLine_of_text h
  have hnone : NoRequest head ↔
      (line = ['?'] ∨ line = ['?', ' ', '/'] ∨ ['?', ' ', '/', ' '] <+: line) := by
    simp [NoRequest, hline]
  rw [hnone, ← splitAt_space_eq_iff, hparse, Prod.mk.injEq]
  apply and_congr
  · rw [← String.toList_inj, String.toList_ofList]
    rfl
  · rw [← String.toList_inj]
    cases (splitAt ' ' line).2 with
    | none => simp
    | some rest => simp

theorem headDecides_of_parsers (hhost : parseHostHeader r.bytes = parseHostHeader r.head)
    (hlength : parseContentLength r.bytes = parseContentLength r.head)
    (hwebsocket : isWebsocketUpgrade r.bytes = isWebsocketUpgrade r.head)
    (hline : parseRequestLine r.bytes = parseRequestLine r.head) : HeadDecides r where
  host := hhost
  contentLength := hlength
  websocket := hwebsocket
  requestLine := hline
  decision := by
    intro ing
    unfold Ingress.decision Ingress.declaredTooLarge
    rw [hhost, hlength, hline]

theorem headDecides_iff_bare (hhead : fromUtf8 r.head = some head)
    (hbody : fromUtf8 r.body = none) : HeadDecides r ↔ Bare head := by
  have hbytes : fromUtf8 r.bytes = none := by simp [r.fromUtf8_bytes, hbody]
  obtain ⟨hnoHost, hnoLength, hnoWebsocket, hnoLine⟩ := parsers_of_not_text hbytes
  have hhostIff : none = parseHostHeader r.head ↔ headerValues "host" head.toList = [] := by
    rw [parseHostHeader_of_text hhead, eq_comm, Option.map_eq_none_iff, List.head?_eq_none_iff]
  constructor
  · rintro ⟨hhost, hlength, hwebsocket, hline, -⟩
    refine ⟨hhostIff.mp (hnoHost.symm.trans hhost), ?_, ?_, ?_⟩
    · exact (parseContentLength_eq_none_iff hhead).mp (hlength.symm.trans hnoLength)
    · rw [← isWebsocketUpgrade_iff hhead, ← hwebsocket, hnoWebsocket]
      exact Bool.false_ne_true
    · exact (parseRequestLine_eq_default_iff hhead).mp (hline.symm.trans hnoLine)
  · rintro ⟨hhost, hlength, hwebsocket, hline⟩
    apply headDecides_of_parsers
    · exact hnoHost.trans (hhostIff.mpr hhost)
    · exact hnoLength.trans ((parseContentLength_eq_none_iff hhead).mpr hlength).symm
    · rw [hnoWebsocket, eq_comm, ← Bool.not_eq_true, isWebsocketUpgrade_iff hhead]
      exact hwebsocket
    · exact hnoLine.trans ((parseRequestLine_eq_default_iff hhead).mpr hline).symm

theorem exists_line_append {p : List Char → Bool} (hp : p [] = false)
    (hhead : fromUtf8 r.head = some head) (body : String) :
    (∃ line ∈ splitCrlf (head ++ body).toList, p line = true) ↔
      (∃ line ∈ splitCrlf head.toList, p line = true) ∨
        ∃ line ∈ splitCrlf body.toList, p line = true := by
  obtain ⟨lines, rfl⟩ := Request.text_ends_crlf hhead
  have hend : splitCrlf (lines ++ "\r\n").toList = splitCrlf lines.toList ++ [[]] := by
    rw [← String.append_empty (s := lines ++ "\r\n"), splitCrlf_crlf]
    rfl
  rw [splitCrlf_crlf, hend]
  simp [or_and_right, exists_or, hp]

theorem asksForWebsocket_append (hhead : fromUtf8 r.head = some head) :
    AsksForWebsocket (head ++ body) ↔ AsksForWebsocket head ∨ AsksForWebsocket body :=
  exists_line_append rfl hhead body

theorem asksForUpgrade_append (hhead : fromUtf8 r.head = some head) :
    AsksForUpgrade (head ++ body) ↔ AsksForUpgrade head ∨ AsksForUpgrade body :=
  exists_line_append rfl hhead body

theorem head?_append_eq_iff {α β : Type*} (found : Option α → Option β)
    (hnone : found none = none) (front back : List α) :
    found (front ++ back).head? = found front.head? ↔ (front = [] → found back.head? = none) := by
  cases front with
  | nil => simp [hnone]
  | cons a front => simp

theorem Request.text_append (hhead : fromUtf8 r.head = some head)
    (hbody : fromUtf8 r.body = some body) : fromUtf8 r.bytes = some (head ++ body) := by
  simp [r.fromUtf8_bytes, hhead, hbody]

theorem Request.headerValues_append (hhead : fromUtf8 r.head = some head) (name body : String) :
    headerValues name (head ++ body).toList =
      headerValues name head.toList ++ headerValues name body.toList := by
  obtain ⟨lines, rfl⟩ := Request.text_ends_crlf hhead
  rw [headerValues_crlf, ← String.append_empty (s := lines ++ "\r\n"), headerValues_crlf]
  simp

theorem parseRequestLine_append (hhead : fromUtf8 r.head = some head)
    (hbody : fromUtf8 r.body = some body) : parseRequestLine r.bytes = parseRequestLine r.head := by
  obtain ⟨line, hline, hparse⟩ := parseRequestLine_of_text (Request.text_append hhead hbody)
  obtain ⟨line', hline', hparse'⟩ := parseRequestLine_of_text hhead
  obtain ⟨lines, rfl⟩ := Request.text_ends_crlf hhead
  have hsame : line = line' := by
    rw [head?_splitCrlf_crlf] at hline
    rw [← String.append_empty (s := lines ++ "\r\n"), head?_splitCrlf_crlf, hline] at hline'
    exact Option.some.inj hline'
  rw [hparse, hparse', hsame]

theorem headDecides_iff_addsNothing (hhead : fromUtf8 r.head = some head)
    (hbody : fromUtf8 r.body = some body) : HeadDecides r ↔ AddsNothing head body := by
  have hbytes := Request.text_append hhead hbody
  have hvalues := Request.headerValues_append hhead
  have hhost : parseHostHeader r.bytes = parseHostHeader r.head ↔
      (headerValues "host" head.toList = [] → headerValues "host" body.toList = []) := by
    rw [parseHostHeader_of_text hbytes, parseHostHeader_of_text hhead, hvalues,
      head?_append_eq_iff (Option.map fun value => String.ofList (trim value)) rfl,
      Option.map_eq_none_iff, List.head?_eq_none_iff]
  have hlength : parseContentLength r.bytes = parseContentLength r.head ↔
      (headerValues "content-length" head.toList = [] → NoLength body) := by
    rw [parseContentLength_of_text hbytes, parseContentLength_of_text hhead, hvalues,
      head?_append_eq_iff (fun first => first.bind fun value => parseU64 (trim value)) rfl,
      ← parseContentLength_of_text hbody, parseContentLength_eq_none_iff hbody]
  have hwebsocket : isWebsocketUpgrade r.bytes = isWebsocketUpgrade r.head ↔
      (AsksForWebsocket head ∨ AsksForWebsocket body → AsksForUpgrade head ∨ AsksForUpgrade body →
        AsksForWebsocket head ∧ AsksForUpgrade head) := by
    rw [Bool.eq_iff_iff, isWebsocketUpgrade_iff hbytes, isWebsocketUpgrade_iff hhead,
      asksForWebsocket_append hhead, asksForUpgrade_append hhead]
    constructor
    · intro h hw hu
      exact h.mp ⟨hw, hu⟩
    · intro h
      constructor
      · rintro ⟨hw, hu⟩
        exact h hw hu
      · rintro ⟨hw, hu⟩
        exact ⟨.inl hw, .inl hu⟩
  constructor
  · intro h
    exact ⟨hhost.mp h.host, hlength.mp h.contentLength, hwebsocket.mp h.websocket⟩
  · rintro ⟨hhost', hlength', hwebsocket'⟩
    exact headDecides_of_parsers (hhost.mpr hhost') (hlength.mpr hlength')
      (hwebsocket.mpr hwebsocket') (parseRequestLine_append hhead hbody)

/-- The decisions about a request are those of its header section exactly when the bytes
that follow it in the buffer go unnoticed. -/
theorem headDecides_iff (r : Request) : HeadDecides r ↔ BodyUnnoticed r := by
  cases hhead : fromUtf8 r.head with
  | none =>
      have hbytes : fromUtf8 r.bytes = none := by simp [r.fromUtf8_bytes, hhead]
      obtain ⟨hhost, hlength, hwebsocket, hline⟩ := parsers_of_not_text hhead
      obtain ⟨hhost', hlength', hwebsocket', hline'⟩ := parsers_of_not_text hbytes
      constructor
      · intro _ head hsome
        rw [hhead] at hsome
        cases hsome
      · intro _
        exact headDecides_of_parsers (hhost'.trans hhost.symm) (hlength'.trans hlength.symm)
          (hwebsocket'.trans hwebsocket.symm) (hline'.trans hline.symm)
  | some head =>
      cases hbody : fromUtf8 r.body with
      | none => simp [headDecides_iff_bare hhead hbody, BodyUnnoticed, hhead, hbody]
      | some body => simp [headDecides_iff_addsNothing hhead hbody, BodyUnnoticed, hhead, hbody]

end Request

/-- One byte of an upload that is no text, in the buffer behind its header section. -/
def binaryUpload : Request where
  head := utf8 "POST / HTTP/1.1\r\nHost: app.example.com\r\nContent-Length: 1\r\n\r\n"
  body := [0xff]
  blankLine_last := by decide +kernel

/-- The upload is answered as a request without a host. -/
theorem binaryUpload_loses_host :
    parseHostHeader binaryUpload.head = some "app.example.com" ∧
      (∀ ing : Ingress, ing.decision binaryUpload.bytes = .missingHost) ∧
      ¬ HeadDecides binaryUpload := by
  have hhost : parseHostHeader binaryUpload.head = some "app.example.com" := by decide +kernel
  have hnone : parseHostHeader binaryUpload.bytes = none := by decide +kernel
  refine ⟨hhost, ?_, ?_⟩
  · intro ing
    simp [Ingress.decision, hnone]
  · intro h
    rw [h.host, hhost] at hnone
    cases hnone

end Seamless.Relay
