import Seamless.Relay.BodyLimit
import Seamless.Relay.HeadSection

/-!
Requests that declare a body above the limit. The declared length is read from the first
`Content-Length` line only, as a `u64`, and a value that cannot be read counts as none.
-/

namespace Seamless.Relay

open Seamless.Common
open Seamless.Library
open Seamless.Library.ByteStream
open Seamless.Library.Text

/-- The status code of the answer that the relay wrote by itself. -/
def Outcome.status : Outcome → Option (List Char)
  | .responded response => some ((response.toList.drop 9).take 3)
  | _ => none

/-- A line of the header section declares, in decimal digits, more than the limit. -/
def DeclaresOver (limit : UInt64) (text : String) : Prop :=
  ∃ value ∈ headerValues "content-length" text.toList,
    trim value ≠ [] ∧ (∀ c ∈ trim value, c.isDigit = true) ∧
      limit.toNat < Nat.ofDigitChars 10 (trim value) 0

/-- A connection on which the request `r` was read, whose header section is the text
`text`, and which should be refused for its declared length. -/
structure OversizedRequest (ing : Ingress) (conn : Connection) (r : Request) (rest : ByteSource)
    (text : String) : Prop where
  notBlocked : ing.geoipBlocked conn.peer.ip = false
  complete : readHead conn.reads [] conn.stream = (some (.ok true), r.bytes, rest)
  limited : 0 < ing.maxBodyBytes
  text_eq : fromUtf8 r.head = some text
  host : headerValues "host" text.toList ≠ []
  notHealth : Ingress.isHealthCheck (parseRequestLine r.head) = false
  declared : DeclaresOver ing.maxBodyBytes text

/-- Answered 413, and nothing was opened or charged. -/
def Ingress.Refuses413 (ing : Ingress) (conn : Connection) : Prop :=
  (ing.routeHttp conn).1.status = some "413".toList ∧ (ing.routeHttp conn).2 = ing.tunnels

/-- The first `Content-Length` line holds a `u64` above the limit. -/
def FirstDeclaresOver (limit : UInt64) (text : String) : Prop :=
  ∃ value n, (headerValues "content-length" text.toList).head? = some value ∧
    IsNumeral (trim value) n ∧ limit.toNat < n ∧ n < 2 ^ 64

theorem status_of_append {front : String} {code : List Char}
    (hcode : (front.toList.drop 9).take 3 = code) (hlength : 12 ≤ front.toList.length)
    (more : String) : (Outcome.responded (front ++ more)).status = some code := by
  have hrest : 3 ≤ (front.toList.drop 9).length := by
    rw [List.length_drop]
    omega
  rw [Outcome.status, String.toList_append, List.drop_append_of_le_length (by omega),
    List.take_append_of_le_length hrest, hcode]

theorem status_errorResponse {status : String} (h : 3 ≤ status.toList.length) (body : String)
    (isHttps : Bool) :
    (Outcome.responded (errorResponse status body isHttps)).status =
      some (status.toList.take 3) := by
  unfold errorResponse
  generalize toString (utf8 body).length = length
  simp only [String.append_assoc]
  rw [← String.append_assoc]
  apply status_of_append
  · rw [String.toList_append, List.drop_left' (by rfl)]
  · rw [String.toList_append, List.length_append]
    exact Nat.add_le_add_left h 9

theorem status_healthResponse (ing : Ingress) (isHttps : Bool) :
    (Outcome.responded (ing.healthResponse isHttps)).status = some "200".toList := by
  unfold Ingress.healthResponse
  dsimp only
  -- The interpolated texts are opaque from here on, or they would be computed.
  generalize ing.healthBody isHttps = body
  generalize toString (utf8 body).length = length
  simp only [String.append_assoc]
  exact status_of_append (by decide) (by decide) _

theorem status_rateLimitResponse (ddos : DDoSProtection) (isHttps : Bool) :
    (Outcome.responded (Ingress.rateLimitResponse ddos isHttps)).status = some "429".toList := by
  unfold Ingress.rateLimitResponse
  split
  · unfold Ingress.challengeResponse
    generalize toString ddos.rps.toNat = rps
    simp only [String.append_assoc]
    exact status_of_append (by decide) (by decide) _
  · exact status_errorResponse (by decide) _ _

section Refusal

variable {ing : Ingress} {conn : Connection} {r : Request} {rest : ByteSource} {text : String}

theorem Ingress.status_routeTo (host : String) (head : List UInt8) (target : Target) :
    (ing.routeTo conn host head rest target).1.status ≠ some "413".toList := by
  cases target with
  | upstream route =>
      simp only [routeTo, routeToUpstream]
      split
      · rw [status_errorResponse (by decide)]
        decide
      · split
        · rw [status_errorResponse (by decide)]
          decide
        · rw [status_errorResponse (by decide)]
          decide
        · simp [Outcome.status]
  | tunnel sub entry =>
      simp only [routeTo, routeToTunnel]
      split
      · rw [status_errorResponse (by decide)]
        decide
      · split
        · simp [Outcome.status]
        · rw [status_rateLimitResponse]
          decide
  | noRoute =>
      simp only [routeTo]
      rw [status_errorResponse (by decide)]
      decide

theorem Ingress.refuses413_iff_decision (hblocked : ing.geoipBlocked conn.peer.ip = false)
    {head : List UInt8}
    (hread : readHead conn.reads [] conn.stream = (some (.ok true), head, rest)) :
    ing.Refuses413 conn ↔ ∃ cl, ing.decision head = .tooLarge cl := by
  have hroute : ing.routeHttp conn = ing.carryOut conn head rest (ing.decision head) := by
    rw [← routeRequest_eq_carryOut]
    simp [routeHttp, hblocked, hread]
  unfold Refuses413
  rw [hroute]
  constructor
  · rintro ⟨hstatus, -⟩
    cases hdecision : ing.decision head with
    | missingHost =>
        rw [hdecision, carryOut, status_errorResponse (by decide)] at hstatus
        exact absurd hstatus (by decide)
    | healthy =>
        rw [hdecision, carryOut, status_healthResponse] at hstatus
        exact absurd hstatus (by decide)
    | tooLarge cl => exact ⟨cl, rfl⟩
    | routed host target =>
        rw [hdecision] at hstatus
        exact absurd hstatus (status_routeTo host head target)
  · rintro ⟨cl, hdecision⟩
    rw [hdecision]
    exact ⟨status_errorResponse (by decide) _ _, rfl⟩

theorem Ingress.decision_eq_tooLarge_iff {head : List UInt8} {host : String} {cl : UInt64}
    (hhost : parseHostHeader head = some host)
    (hhealth : isHealthCheck (parseRequestLine head) = false) :
    ing.decision head = .tooLarge cl ↔ ing.declaredTooLarge head = some cl := by
  unfold decision
  simp only [hhost, hhealth, Bool.false_eq_true, if_false]
  cases ing.declaredTooLarge head with
  | none => simp
  | some cl' => simp

theorem Ingress.declaredTooLarge_iff (hpositive : 0 < ing.maxBodyBytes) {head : List UInt8}
    (htext : fromUtf8 head = some text) :
    (∃ cl, ing.declaredTooLarge head = some cl) ↔ FirstDeclaresOver ing.maxBodyBytes text := by
  unfold declaredTooLarge
  rw [if_pos hpositive, parseContentLength_of_text htext]
  simp only [Option.filter_eq_some_iff, Option.bind_eq_some_iff, parseU64_eq_some_iff,
    decide_eq_true_eq]
  constructor
  · rintro ⟨cl, ⟨value, hvalue, hnumeral⟩, hover⟩
    exact ⟨value, cl.toNat, hvalue, hnumeral, UInt64.lt_iff_toNat_lt.mp hover, cl.toNat_lt⟩
  · rintro ⟨value, n, hvalue, hnumeral, hover, hfits⟩
    have hn : (UInt64.ofNat n).toNat = n := UInt64.toNat_ofNat_of_lt' hfits
    refine ⟨UInt64.ofNat n, ⟨value, hvalue, by rwa [hn]⟩, ?_⟩
    rw [UInt64.lt_iff_toNat_lt, hn]
    exact hover

theorem firstDeclaresOver_append {limit : UInt64} (htext : fromUtf8 r.head = some text)
    (hdeclared : DeclaresOver limit text) (body : String) :
    FirstDeclaresOver limit (text ++ body) ↔ FirstDeclaresOver limit text := by
  obtain ⟨value, hvalue, -⟩ := hdeclared
  have hfirst : (headerValues "content-length" (text ++ body).toList).head? =
      (headerValues "content-length" text.toList).head? := by
    rw [Request.headerValues_append htext,
      List.head?_append_of_ne_nil _ (List.ne_nil_of_mem hvalue)]
  unfold FirstDeclaresOver
  rw [hfirst]

/-- A request that declares too long a body in some line is refused exactly when the first
such line can be read as a `u64` above the limit, and the whole buffer is text. -/
theorem refuses413_iff (h : OversizedRequest ing conn r rest text) :
    ing.Refuses413 conn ↔
      FirstDeclaresOver ing.maxBodyBytes text ∧ (fromUtf8 r.body).isSome := by
  rw [Ingress.refuses413_iff_decision h.notBlocked h.complete]
  cases hbody : fromUtf8 r.body with
  | none =>
      have hbytes : fromUtf8 r.bytes = none := by simp [r.fromUtf8_bytes, hbody]
      have hmissing : ing.decision r.bytes = .missingHost := by
        simp [Ingress.decision, (parsers_of_not_text hbytes).1]
      simp [hmissing]
  | some body =>
      have hbytes := Request.text_append h.text_eq hbody
      obtain ⟨host, hhost⟩ : ∃ host, parseHostHeader r.bytes = some host := by
        obtain ⟨value, values, hvalues⟩ := List.exists_cons_of_ne_nil h.host
        rw [parseHostHeader_of_text hbytes, Request.headerValues_append h.text_eq, hvalues]
        exact ⟨_, rfl⟩
      have hhealth : Ingress.isHealthCheck (parseRequestLine r.bytes) = false := by
        rw [parseRequestLine_append h.text_eq hbody]
        exact h.notHealth
      simp only [Ingress.decision_eq_tooLarge_iff hhost hhealth,
        Ingress.declaredTooLarge_iff h.limited hbytes,
        firstDeclaresOver_append h.text_eq h.declared, Option.isSome_some, and_true]

end Refusal

def declaringFive : Request := postedBody "Content-Length: 5" "" (by decide +kernel)

/-- The least length that does not fit a `u64`. -/
def declaringHuge : Request :=
  postedBody "Content-Length: 18446744073709551616" "" (by decide +kernel)

theorem declaresOver_of_digits {limit : UInt64} {text : String} (value : List Char) (n : Nat)
    (hvalue : value ∈ headerValues "content-length" text.toList) (hne : trim value ≠ [])
    (hdigits : digitsValue (trim value) = some n) (hover : limit.toNat < n) :
    DeclaresOver limit text := by
  obtain ⟨hall, rfl⟩ := digitsValue_eq_some_iff.mp hdigits
  exact ⟨value, hvalue, hne, hall, hover⟩

theorem oversizedRequest_of_text (r : Request) (text : String)
    (hread : (readHead (carrying [r]).reads [] (carrying [r]).stream).1 = some (.ok true) ∧
      (readHead (carrying [r]).reads [] (carrying [r]).stream).2.1 = r.bytes)
    (htext : fromUtf8 r.head = some text) (hhost : headerValues "host" text.toList ≠ [])
    (hhealth : Ingress.isHealthCheck (parseRequestLine r.head) = false)
    (hdeclared : DeclaresOver 4 text) :
    ∃ rest, OversizedRequest fourByteLimit (carrying [r]) r rest text :=
  ⟨_, rfl, Prod.ext hread.1 (Prod.ext hread.2 rfl), by decide, htext, hhost, hhealth, hdeclared⟩

theorem refuses413_declaringFive : fourByteLimit.Refuses413 (carrying [declaringFive]) := by
  obtain ⟨rest, hrequest⟩ := oversizedRequest_of_text declaringFive
    ("POST / HTTP/1.1\r\nHost: a.example.com\r\nContent-Length: 5\r\n\r\n")
    (by decide +kernel) (by decide +kernel) (by decide +kernel) (by decide +kernel)
    (declaresOver_of_digits " 5".toList 5 (by decide +kernel) (by decide +kernel)
      (by decide +kernel) (by decide))
  apply (refuses413_iff hrequest).mpr
  refine ⟨⟨" 5".toList, 5, by decide +kernel, ?_, by decide, by decide⟩, by decide +kernel⟩
  have htrim : trim " 5".toList = ['5'] := by decide +kernel
  rw [htrim]
  exact ⟨['5'], .inl rfl, by decide, digitsValue_eq_some_iff.mp (by decide +kernel)⟩

/-- A length of twenty digits is taken for no length, and the request is passed on. -/
theorem declaringHuge_passes :
    (∃ rest text,
      OversizedRequest fourByteLimit (carrying [declaringHuge]) declaringHuge rest text) ∧
      ¬ fourByteLimit.Refuses413 (carrying [declaringHuge]) := by
  constructor
  · obtain ⟨rest, hrequest⟩ := oversizedRequest_of_text declaringHuge
      ("POST / HTTP/1.1\r\nHost: a.example.com\r\n" ++
        "Content-Length: 18446744073709551616\r\n\r\n")
      (by decide +kernel) (by decide +kernel) (by decide +kernel) (by decide +kernel)
      (declaresOver_of_digits " 18446744073709551616".toList (2 ^ 64) (by decide +kernel)
        (by decide +kernel) (by decide +kernel) (by decide))
    exact ⟨rest, _, hrequest⟩
  · rintro ⟨hstatus, -⟩
    revert hstatus
    decide +kernel

end Seamless.Relay
