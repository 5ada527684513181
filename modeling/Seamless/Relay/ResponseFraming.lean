import Seamless.Library.Ipv6
import Seamless.Relay.HeadSection

/-!
The responses that the relay writes by itself, on the public ingress and on the server for
ACME challenges, and whether a client can tell where each of them ends.
-/

namespace Seamless.Relay

open Seamless.Common
open Seamless.Library
open Seamless.Library.ByteStream
open Seamless.Library.NetAddr
open Seamless.Library.Text

/-- The text between white space, and empty pieces where two stand side by side. -/
def whitespacePieces : List Char → List (List Char)
  | [] => [[]]
  | c :: rest =>
      if isWhitespace c then [] :: whitespacePieces rest
      else
        match whitespacePieces rest with
        | [] => [[c]]
        | piece :: pieces => (c :: piece) :: pieces

/-- `str::split_whitespace`. -/
def splitWhitespace (s : List Char) : List (List Char) :=
  (whitespacePieces s).filter fun piece => !piece.isEmpty

namespace AcmeServer

def pathPrefix : String := "/.well-known/acme-challenge/"

def requestPath (req : List Char) : List Char :=
  ((lines req).head?.bind fun line => (splitWhitespace line)[1]?).getD ['/']

def challengeAnswer (keyAuth : String) : String :=
  "HTTP/1.1 200 OK\r\nContent-Type: text/plain\r\nContent-Length: " ++
    toString (utf8 keyAuth).length ++ "\r\nConnection: close\r\n\r\n" ++ keyAuth

def notFound : String := "HTTP/1.1 404 Not Found\r\nContent-Length: 0\r\nConnection: close\r\n\r\n"

def respond (tokens : KeyedTable String String) (req : List Char) : String :=
  match stripPrefix pathPrefix.toList (requestPath req) with
  | some token =>
      match tokens.lookup (String.ofList (token.rdropWhile (· == '/'))) with
      | some keyAuth => challengeAnswer keyAuth
      | none => notFound
  | none => notFound

/-- One connection of `run_acme_http_server`: a single read, and no answer to what is not
text. -/
def serve (tokens : KeyedTable String String) (stream : ByteSource) : Option String :=
  match (stream.read 4096).1 with
  | .error _ => none
  | .ok bytes => (fromUtf8 bytes).map fun req => respond tokens req.toList

end AcmeServer

/-- The head ends at the first blank line, and exactly as many bytes follow as its one
`Content-Length` line says. -/
def WellFramed (response : String) : Prop :=
  ∃ head body, response = head ++ body ∧
    (windowPosition blankLine (utf8 response)).map (· + 4) = some (utf8 head).length ∧
    ∃ value, headerValues "content-length" head.toList = [value] ∧
      IsNumeral (trim value) (utf8 body).length

/-- Lines with their line breaks. -/
def render (lines : List String) : String :=
  lines.foldr (fun line text => line ++ "\r\n" ++ text) ""

theorem render_cons (line : String) (lines : List String) :
    render (line :: lines) = line ++ "\r\n" ++ render lines := rfl

/-- A line of a response head. -/
structure IsLine (line : String) : Prop where
  ne_empty : line ≠ ""
  no_return : '\r' ∉ line.toList

section Bytes

variable {l more : List UInt8} {s : String}

theorem windowPosition_blankLine_append (h : 13 ∉ l) (more : List UInt8) :
    windowPosition blankLine (l ++ more) =
      (windowPosition blankLine more).map (· + l.length) := by
  induction l with
  | nil => simp
  | cons b l ih =>
      rw [List.mem_cons, not_or] at h
      have hfront : ¬ blankLine.isPrefixOf (b :: l ++ more) = true := by
        simp [blankLine, h.1]
      rw [List.cons_append, windowPosition, if_neg (by simpa using hfront), ih h.2,
        Option.map_map]
      congr 1

theorem windowPosition_blankLine_crlf {b : UInt8} (h : b ≠ 13) (more : List UInt8) :
    windowPosition blankLine (crlf ++ b :: more) =
      (windowPosition blankLine (b :: more)).map (· + 2) := by
  have hfirst : ¬ blankLine.isPrefixOf (13 :: 10 :: b :: more) = true := by
    simp [blankLine, Ne.symm h]
  have hsecond : ¬ blankLine.isPrefixOf (10 :: b :: more) = true := by
    simp [blankLine]
  rw [crlf, List.cons_append, List.cons_append, List.nil_append, windowPosition, if_neg hfirst,
    windowPosition, if_neg hsecond, Option.map_map]
  rfl

theorem return_mem_of_utf8 (h : 13 ∈ utf8 s) : '\r' ∈ s.toList := by
  obtain ⟨a, b, hsplit⟩ := List.append_of_mem h
  obtain ⟨s₁, s₂, rfl, -, hs₂⟩ := utf8_split hsplit (by simp; decide)
  have hreturn : utf8 s₂ = utf8 "\r" ++ b := by
    rw [hs₂]
    rfl
  have hstart := toList_prefix_of_utf8 hreturn
  rw [String.toList_append, List.mem_append]
  exact .inr (hstart.subset (by simp))

end Bytes

section Lines

variable {lines : List String} {line body : String}

theorem IsLine.bytes (h : IsLine line) : ∃ b bytes, utf8 line = b :: bytes ∧ 13 ∉ utf8 line := by
  have hbytes : utf8 line ≠ [] := by
    intro hnil
    exact h.ne_empty (utf8_injective hnil)
  obtain ⟨b, bytes, hcons⟩ := List.exists_cons_of_ne_nil hbytes
  exact ⟨b, bytes, hcons, fun hreturn => h.no_return (return_mem_of_utf8 hreturn)⟩

theorem utf8_render_cons (line : String) (rest : List String) (more : String) :
    utf8 (render (line :: rest) ++ more) = utf8 line ++ (crlf ++ utf8 (render rest ++ more)) := by
  simp [render, utf8_append, utf8_crlf]

theorem windowPosition_render (hne : lines ≠ []) (hlines : ∀ line ∈ lines, IsLine line)
    (body : String) :
    (windowPosition blankLine (utf8 (render lines ++ ("\r\n" ++ body)))).map (· + 4) =
      some ((utf8 (render lines)).length + 2) := by
  induction lines with
  | nil => exact absurd rfl hne
  | cons line rest ih =>
      rw [List.forall_mem_cons] at hlines
      obtain ⟨hline, hrest⟩ := hlines
      obtain ⟨-, -, -, hreturn⟩ := hline.bytes
      have hlength : (utf8 (render (line :: rest))).length =
          (utf8 line).length + 2 + (utf8 (render rest)).length := by
        have hbytes := utf8_render_cons line rest ""
        rw [String.append_empty, String.append_empty] at hbytes
        rw [hbytes, List.length_append, List.length_append]
        have htwo : crlf.length = 2 := rfl
        omega
      rw [utf8_render_cons, windowPosition_blankLine_append hreturn, hlength]
      cases rest with
      | nil =>
          have hblank : windowPosition blankLine (crlf ++ utf8 (render [] ++ ("\r\n" ++ body))) =
              some 0 := by
            simp [render, utf8_append, utf8_crlf, crlf, windowPosition, blankLine]
          have hempty : (utf8 (render [])).length = 0 := rfl
          rw [hblank, hempty, Option.map_some, Option.map_some]
          congr 1
          omega
      | cons next rest =>
          obtain ⟨b, bytes, hcons, hnext⟩ := (hrest next (by simp)).bytes
          have hb : b ≠ 13 := by
            rintro rfl
            exact hnext (by simp [hcons])
          have hih := ih (by simp) hrest
          rw [utf8_render_cons, hcons, List.cons_append] at hih ⊢
          rw [windowPosition_blankLine_crlf hb]
          obtain ⟨i, hi, hi'⟩ := Option.map_eq_some_iff.mp hih
          rw [hi, Option.map_some, Option.map_some, Option.map_some]
          congr 1
          omega

theorem toList_render (lines : List String) :
    (render lines).toList = (lines.map String.toList).flatMap (· ++ ['\r', '\n']) := by
  induction lines with
  | nil => rfl
  | cons line lines ih =>
      rw [render_cons, String.toList_append, String.toList_append, ih]
      rfl

theorem headerValues_render (hlines : ∀ line ∈ lines, IsLine line) (name : String) :
    headerValues name (render lines ++ "\r\n").toList =
      lines.filterMap fun line => namedValue name line.toList := by
  have hbreak : ∀ line ∈ lines.map String.toList, ¬ ['\r', '\n'] <:+: line := by
    intro line hline hin
    obtain ⟨line, hmem, rfl⟩ := List.mem_map.mp hline
    exact (hlines line hmem).no_return (hin.subset (by simp))
  rw [headerValues, String.toList_append, toList_render, splitCrlf_lines hbreak,
    List.filterMap_append, List.filterMap_map]
  simp [splitCrlf]

theorem wellFramed_render_iff (value : List Char) (hne : lines ≠ [])
    (hlines : ∀ line ∈ lines, IsLine line)
    (hvalue : (lines.filterMap fun line => namedValue "content-length" line.toList) = [value])
    (body : String) :
    WellFramed (render lines ++ ("\r\n" ++ body)) ↔ IsNumeral (trim value) (utf8 body).length := by
  have hposition := windowPosition_render hne hlines body
  have hlength : (utf8 (render lines ++ "\r\n")).length = (utf8 (render lines)).length + 2 := by
    rw [utf8_append, List.length_append, utf8_crlf]
    rfl
  constructor
  · rintro ⟨head, body', hresponse, hhead, value', hvalue', hnumeral⟩
    rw [hposition, ← hlength] at hhead
    have hbytes : utf8 (render lines ++ "\r\n") ++ utf8 body = utf8 head ++ utf8 body' := by
      rw [← utf8_append, ← utf8_append, ← hresponse, String.append_assoc]
    obtain ⟨hfront, hback⟩ := List.append_inj hbytes (Option.some.inj hhead)
    obtain rfl := utf8_injective hfront
    obtain rfl := utf8_injective hback
    rw [headerValues_render hlines, hvalue, List.singleton_inj] at hvalue'
    rwa [hvalue']
  · intro hnumeral
    refine ⟨render lines ++ "\r\n", body, by rw [String.append_assoc], ?_, value, ?_, hnumeral⟩
    · rw [hposition, hlength]
    · rw [headerValues_render hlines, hvalue]

theorem isLine_append {front back : String} (hfront : IsLine front) (hback : '\r' ∉ back.toList) :
    IsLine (front ++ back) where
  ne_empty := by
    intro hnil
    apply hfront.ne_empty
    rw [← String.toList_inj, String.toList_append] at hnil
    rw [← String.toList_inj]
    exact (List.append_eq_nil_iff.mp hnil).1
  no_return := by
    rw [String.toList_append, List.mem_append, not_or]
    exact ⟨hfront.no_return, hback⟩

theorem toList_field {label name : String} (h : label.toList = name.toList ++ [':', ' '])
    (value : String) : (label ++ value).toList = name.toList ++ ':' :: ' ' :: value.toList := by
  rw [String.toList_append, h, List.append_assoc]
  rfl

theorem toList_toString (n : Nat) : (toString n).toList = decimal n := by
  rw [Nat.toString_eq_ofList_toDigits, String.toList_ofList]
  rfl

theorem return_notMem_toString (n : Nat) : '\r' ∉ (toString n).toList := by
  rw [toList_toString]
  intro hreturn
  exact absurd (isDigit_of_mem_decimal hreturn) (by decide)

theorem isNumeral_toString (n : Nat) : IsNumeral (trim (' ' :: (toString n).toList)) n := by
  have hdigits : ∀ c ∈ decimal n, isWhitespace c = false := by
    intro c hc
    exact isWhitespace_of_isAddressChar (isAddressChar_of_mem_decimal hc)
  have htrim := @trim_between [' '] (decimal n) [] (by simp [isWhitespace]) hdigits (by simp)
  rw [List.append_nil] at htrim
  rw [toList_toString]
  have hvalue : trim (' ' :: decimal n) = decimal n := htrim
  rw [hvalue]
  exact isNumeral_decimal n

end Lines

section Responses

variable {status body : String} {isHttps : Bool}

def hstsLines (isHttps : Bool) : List String :=
  if isHttps then ["Strict-Transport-Security: max-age=63072000; includeSubDomains"] else []

def lengthLine (body : String) : String := "Content-Length: " ++ toString (utf8 body).length

theorem wellFramed_of_lengthLine (before after : List String)
    (hbefore : ∀ line ∈ before, IsLine line ∧ namedValue "content-length" line.toList = none)
    (hafter : ∀ line ∈ after, IsLine line ∧ namedValue "content-length" line.toList = none)
    (body : String) :
    WellFramed (render (before ++ lengthLine body :: after) ++ ("\r\n" ++ body)) := by
  have hlengthLine : (lengthLine body).toList =
      "Content-Length".toList ++ ':' :: ' ' :: (toString (utf8 body).length).toList :=
    toList_field (by decide) _
  have hvalue : namedValue "content-length" (lengthLine body).toList =
      some (' ' :: (toString (utf8 body).length).toList) := by
    apply namedValue_eq_some_iff.mpr
    exact ⟨"Content-Length".toList, hlengthLine, by decide, by decide⟩
  have hnone : ∀ lines : List String,
      (∀ line ∈ lines, IsLine line ∧ namedValue "content-length" line.toList = none) →
        (lines.filterMap fun line => namedValue "content-length" line.toList) = [] := by
    intro lines hlines
    rw [List.filterMap_eq_nil_iff]
    exact fun line hline => (hlines line hline).2
  apply (wellFramed_render_iff _ (by simp) ?_ ?_ body).mpr (isNumeral_toString _)
  · intro line hline
    rw [List.mem_append, List.mem_cons] at hline
    rcases hline with hline | rfl | hline
    · exact (hbefore line hline).1
    · exact isLine_append ⟨by decide, by decide⟩ (return_notMem_toString _)
    · exact (hafter line hline).1
  · rw [List.filterMap_append, List.filterMap_cons, hvalue, hnone before hbefore,
      hnone after hafter]
    rfl

theorem isLine_hstsLines : ∀ line ∈ hstsLines isHttps,
    IsLine line ∧ namedValue "content-length" line.toList = none := by
  intro line hline
  cases isHttps with
  | true =>
      obtain rfl := List.mem_singleton.mp hline
      exact ⟨⟨by decide, by decide⟩, by decide⟩
  | false => simp [hstsLines] at hline

theorem hsts_eq_render (isHttps : Bool) : hsts isHttps = render (hstsLines isHttps) := by
  cases isHttps with
  | true => rfl
  | false => rfl

theorem render_append (lines lines' : List String) :
    render (lines ++ lines') = render lines ++ render lines' := by
  induction lines with
  | nil => simp [render]
  | cons line lines ih =>
      rw [List.cons_append, render_cons, ih, render_cons]
      simp only [String.append_assoc]

theorem errorResponse_eq_render (status body : String) (isHttps : Bool) :
    errorResponse status body isHttps =
      render (["HTTP/1.1 " ++ status] ++ lengthLine body ::
        (["Content-Type: text/plain"] ++ hstsLines isHttps ++ ["Connection: close"])) ++
        ("\r\n" ++ body) := by
  unfold errorResponse lengthLine
  rw [hsts_eq_render]
  generalize hstsLines isHttps = extra
  generalize toString (utf8 body).length = length
  rw [← String.toList_inj]
  simp only [render_append, render_cons, String.toList_append]
  simp [render]

theorem isLine_of_literal {lines : List String} (hlines : ∀ line ∈ lines, line ≠ "" ∧
    '\r' ∉ line.toList ∧ namedValue "content-length" line.toList = none) :
    ∀ line ∈ lines, IsLine line ∧ namedValue "content-length" line.toList = none := by
  intro line hline
  obtain ⟨hne, hreturn, hnone⟩ := hlines line hline
  exact ⟨⟨hne, hreturn⟩, hnone⟩

theorem isLine_around_hsts {front back : List String} (hfront : ∀ line ∈ front, line ≠ "" ∧
      '\r' ∉ line.toList ∧ namedValue "content-length" line.toList = none)
    (hback : ∀ line ∈ back, line ≠ "" ∧
      '\r' ∉ line.toList ∧ namedValue "content-length" line.toList = none) :
    ∀ line ∈ front ++ hstsLines isHttps ++ back,
      IsLine line ∧ namedValue "content-length" line.toList = none := by
  intro line hline
  rw [List.append_assoc, List.mem_append, List.mem_append] at hline
  rcases hline with hline | hline | hline
  · exact isLine_of_literal hfront line hline
  · exact isLine_hstsLines line hline
  · exact isLine_of_literal hback line hline

theorem errorResponse_wellFramed (hreturn : '\r' ∉ status.toList) (hcolon : ':' ∉ status.toList)
    (body : String) (isHttps : Bool) : WellFramed (errorResponse status body isHttps) := by
  rw [errorResponse_eq_render]
  apply wellFramed_of_lengthLine
  · intro line hline
    obtain rfl := List.mem_singleton.mp hline
    refine ⟨isLine_append ⟨by decide, by decide⟩ hreturn, namedValue_of_no_colon ?_ _⟩
    rw [String.toList_append, List.mem_append, not_or]
    exact ⟨by decide, hcolon⟩
  · exact isLine_around_hsts (by decide) (by decide)

theorem healthResponse_wellFramed (ing : Ingress) (isHttps : Bool) :
    WellFramed (ing.healthResponse isHttps) := by
  have hrender : ing.healthResponse isHttps =
      render (["HTTP/1.1 200 OK"] ++ lengthLine (ing.healthBody isHttps) ::
        (["Content-Type: application/json"] ++ hstsLines isHttps ++
          ["Cache-Control: no-store", "Connection: close"])) ++
        ("\r\n" ++ ing.healthBody isHttps) := by
    unfold Ingress.healthResponse lengthLine
    dsimp only
    rw [hsts_eq_render]
    generalize hstsLines isHttps = extra
    generalize ing.healthBody isHttps = body
    generalize toString (utf8 body).length = length
    rw [← String.toList_inj]
    simp only [render_append, render_cons, String.toList_append]
    simp [render]
  rw [hrender]
  apply wellFramed_of_lengthLine
  · exact isLine_of_literal (by decide)
  · exact isLine_around_hsts (by decide) (by decide)

theorem challengeAnswer_wellFramed (keyAuth : String) :
    WellFramed (AcmeServer.challengeAnswer keyAuth) := by
  have hrender : AcmeServer.challengeAnswer keyAuth =
      render (["HTTP/1.1 200 OK", "Content-Type: text/plain"] ++ lengthLine keyAuth ::
        ["Connection: close"]) ++ ("\r\n" ++ keyAuth) := by
    unfold AcmeServer.challengeAnswer lengthLine
    generalize toString (utf8 keyAuth).length = length
    rw [← String.toList_inj]
    simp only [render_append, render_cons, String.toList_append]
    simp [render]
  rw [hrender]
  apply wellFramed_of_lengthLine
  · exact isLine_of_literal (by decide)
  · exact isLine_of_literal (by decide)

theorem notFound_wellFramed : WellFramed AcmeServer.notFound := by
  have hrender : AcmeServer.notFound =
      render (["HTTP/1.1 404 Not Found"] ++ lengthLine "" :: ["Connection: close"]) ++
        ("\r\n" ++ "") := by decide
  rw [hrender]
  apply wellFramed_of_lengthLine
  · exact isLine_of_literal (by decide)
  · exact isLine_of_literal (by decide)

/-- The lines of the challenge around the one that names the rate. -/
def challengeLinesBefore : List String := ["HTTP/1.1 429 Too Many Requests", "Retry-After: 1"]

def challengeLinesAfter : List String :=
  ["X-RateLimit-Remaining: 0", "Content-Length: 25", "Content-Type: text/plain",
    "Connection: close"]

def rateLine (ddos : DDoSProtection) : String :=
  "X-RateLimit-Limit: " ++ toString ddos.rps.toNat

theorem challengeResponse_eq (ddos : DDoSProtection) : Ingress.challengeResponse ddos =
    render (challengeLinesBefore ++ rateLine ddos :: challengeLinesAfter) ++
      ("\r\n" ++ "rate limit exceeded\n") := by
  unfold Ingress.challengeResponse rateLine challengeLinesBefore challengeLinesAfter
  generalize toString ddos.rps.toNat = rps
  apply String.toList_inj.mp
  simp only [List.cons_append, List.nil_append, render_cons, String.toList_append]
  simp [render]

theorem isLine_challengeLines (ddos : DDoSProtection) :
    ∀ line ∈ challengeLinesBefore ++ rateLine ddos :: challengeLinesAfter, IsLine line := by
  have hliteral : ∀ line ∈ challengeLinesBefore ++ challengeLinesAfter,
      line ≠ "" ∧ '\r' ∉ line.toList := by decide
  intro line hline
  rcases List.mem_append.mp hline with hline | hline
  · obtain ⟨hne, hreturn⟩ := hliteral line (List.mem_append_left _ hline)
    exact ⟨hne, hreturn⟩
  · rcases List.mem_cons.mp hline with rfl | hline
    · exact isLine_append ⟨by decide, by decide⟩ (return_notMem_toString _)
    · obtain ⟨hne, hreturn⟩ := hliteral line (List.mem_append_right _ hline)
      exact ⟨hne, hreturn⟩

theorem namedValue_rateLine (ddos : DDoSProtection) :
    namedValue "content-length" (rateLine ddos).toList = none := by
  have htext : (rateLine ddos).toList =
      "X-RateLimit-Limit".toList ++ ':' :: ' ' :: (toString ddos.rps.toNat).toList :=
    toList_field (by decide) _
  rw [htext, namedValue_field (by decide), if_neg (by decide)]

theorem challengeResponse_not_wellFramed (ddos : DDoSProtection) :
    ¬ WellFramed (Ingress.challengeResponse ddos) := by
  have hbefore : (challengeLinesBefore.filterMap
      fun line => namedValue "content-length" line.toList) = [] := by decide
  have hafter : (challengeLinesAfter.filterMap
      fun line => namedValue "content-length" line.toList) = [" 25".toList] := by decide
  rw [challengeResponse_eq, wellFramed_render_iff " 25".toList (by simp)
    (isLine_challengeLines ddos)]
  · intro hnumeral
    have htrim : trim " 25".toList = "25".toList := by decide +kernel
    have hlength : (utf8 "rate limit exceeded\n").length = (20 : UInt64).toNat := by decide
    rw [htrim, hlength, ← parseU64_eq_some_iff] at hnumeral
    exact absurd hnumeral (by decide +kernel)
  · have hrate : ([rateLine ddos].filterMap
        fun line => namedValue "content-length" line.toList) = [] := by
      rw [List.filterMap_eq_nil_iff]
      intro line hline
      rw [List.mem_singleton.mp hline, namedValue_rateLine]
    rw [← List.singleton_append, List.filterMap_append, List.filterMap_append, hbefore, hrate,
      hafter, List.nil_append, List.nil_append]

theorem AcmeServer.respond_wellFramed (tokens : KeyedTable String String) (req : List Char) :
    WellFramed (respond tokens req) := by
  unfold respond
  split
  · split
    · exact challengeAnswer_wellFramed _
    · exact notFound_wellFramed
  · exact notFound_wellFramed

end Responses

/-- The connection is meant for a tunnel that is not paused, whose token bucket turns it
down in challenge mode. -/
def Ingress.Challenges (ing : Ingress) (conn : Connection) : Prop :=
  ing.geoipBlocked conn.peer.ip = false ∧ ∃ head rest host sub entry,
    readHead conn.reads [] conn.stream = (some (.ok true), head, rest) ∧
    ing.decision head = .routed host (.tunnel sub entry) ∧ entry.paused = false ∧
    (entry.ddos.check ing.now).1 = false ∧ entry.ddos.challengeMode = true

/-- What both servers answer by themselves is well framed. -/
structure AnswersFramed (ing : Ingress) (conn : Connection) (tokens : KeyedTable String String)
    (stream : ByteSource) : Prop where
  ingress : ∀ response, (ing.routeHttp conn).1 = .responded response → WellFramed response
  acme : ∀ response, AcmeServer.serve tokens stream = some response → WellFramed response

section Framing

variable {ing : Ingress} {conn : Connection} {head : List UInt8} {rest : ByteSource}
  {host response : String}

theorem DDoSProtection.check_challengeMode (d : DDoSProtection) (now : Nat) :
    (d.check now).2.challengeMode = d.challengeMode := by
  unfold check
  split
  · rfl
  · split
    · rfl
    · dsimp only
      split <;> rfl

theorem Ingress.routeTo_wellFramed {target : Target}
    (htarget : ∀ sub entry, target = .tunnel sub entry → entry.paused = false →
      (entry.ddos.check ing.now).1 = false → entry.ddos.challengeMode = false)
    (h : (ing.routeTo conn host head rest target).1 = .responded response) :
    WellFramed response := by
  cases target with
  | upstream route =>
      simp only [routeTo, routeToUpstream] at h
      split at h
      · obtain rfl := Outcome.responded.inj h
        exact errorResponse_wellFramed (by decide) (by decide) _ _
      · split at h
        · obtain rfl := Outcome.responded.inj h
          exact errorResponse_wellFramed (by decide) (by decide) _ _
        · obtain rfl := Outcome.responded.inj h
          exact errorResponse_wellFramed (by decide) (by decide) _ _
        · cases h
  | tunnel sub entry =>
      simp only [routeTo, routeToTunnel] at h
      split at h
      · obtain rfl := Outcome.responded.inj h
        exact errorResponse_wellFramed (by decide) (by decide) _ _
      · rename_i hpaused
        split at h
        · cases h
        · rename_i hcheck
          obtain rfl := Outcome.responded.inj h
          have hmode := htarget sub entry rfl (by simpa using hpaused) (by simpa using hcheck)
          rw [rateLimitResponse, DDoSProtection.check_challengeMode, hmode]
          exact errorResponse_wellFramed (by decide) (by decide) _ _
  | noRoute =>
      obtain rfl := Outcome.responded.inj h
      exact errorResponse_wellFramed (by decide) (by decide) _ _

theorem Ingress.routeHttp_wellFramed (hchallenges : ¬ ing.Challenges conn)
    (h : (ing.routeHttp conn).1 = .responded response) : WellFramed response := by
  unfold routeHttp at h
  split at h
  · cases h
  · rename_i hblocked
    split at h
    · cases h
    · cases h
    · split at h
      · obtain rfl := Outcome.responded.inj h
        exact errorResponse_wellFramed (by decide) (by decide) _ _
      · cases h
    · rename_i head rest hread
      rw [routeRequest_eq_carryOut] at h
      cases hdecision : ing.decision head with
      | missingHost =>
          rw [hdecision] at h
          obtain rfl := Outcome.responded.inj h
          exact errorResponse_wellFramed (by decide) (by decide) _ _
      | healthy =>
          rw [hdecision] at h
          obtain rfl := Outcome.responded.inj h
          exact healthResponse_wellFramed ing conn.isHttps
      | tooLarge cl =>
          rw [hdecision] at h
          obtain rfl := Outcome.responded.inj h
          exact errorResponse_wellFramed (by decide) (by decide) _ _
      | routed host target =>
          rw [hdecision] at h
          refine routeTo_wellFramed ?_ h
          rintro sub entry rfl hpaused hcheck
          by_contra hmode
          exact hchallenges ⟨by simpa using hblocked, head, rest, host, sub, entry, hread,
            hdecision, hpaused, hcheck, by simpa using hmode⟩

theorem Ingress.routeHttp_of_challenges (h : ing.Challenges conn) :
    ∃ ddos, (ing.routeHttp conn).1 = .responded (challengeResponse ddos) := by
  obtain ⟨hblocked, head, rest, host, sub, entry, hread, hdecision, hpaused, hcheck, hmode⟩ := h
  refine ⟨(entry.ddos.check ing.now).2, ?_⟩
  have hroute : ing.routeHttp conn = ing.routeToTunnel conn sub entry head rest := by
    unfold routeHttp
    rw [hblocked, hread]
    simp only [Bool.false_eq_true, if_false]
    rw [routeRequest_eq_carryOut, hdecision]
    rfl
  rw [hroute, routeToTunnel, hpaused]
  simp [hcheck, rateLimitResponse, DDoSProtection.check_challengeMode, hmode]

/-- Every answer is well framed, but for the refusals in challenge mode. -/
theorem answersFramed_iff (ing : Ingress) (conn : Connection) (tokens : KeyedTable String String)
    (stream : ByteSource) : AnswersFramed ing conn tokens stream ↔ ¬ ing.Challenges conn := by
  constructor
  · intro hframed hchallenges
    obtain ⟨ddos, hresponse⟩ := Ingress.routeHttp_of_challenges hchallenges
    exact challengeResponse_not_wellFramed ddos (hframed.ingress _ hresponse)
  · intro hchallenges
    constructor
    · intro response h
      exact Ingress.routeHttp_wellFramed hchallenges h
    · intro response h
      unfold AcmeServer.serve at h
      split at h
      · cases h
      · obtain ⟨req, -, rfl⟩ := Option.map_eq_some_iff.mp h
        exact AcmeServer.respond_wellFramed tokens req.toList

end Framing

/-- A tunnel whose token bucket is used up. -/
def exhausted : Ingress :=
  .tunnelsOnly "example.com" (AList.insert "a"
    { TunnelEntry.new 0 "a" "192.0.2.1" 0 0 with
      ddos := { DDoSProtection.new 100 200 0 with enabled := true, tokens := 0 } } ∅)

/-- The client of such a tunnel waits for five bytes that never come. -/
theorem exhausted_not_framed :
    ¬ AnswersFramed exhausted pipelined ∅ (.ofList []) := by
  intro hframed
  obtain ⟨response, hresponse⟩ : ∃ response,
      (exhausted.routeHttp pipelined).1 = .responded response ∧
        response = Ingress.challengeResponse (DDoSProtection.new 100 200 0) := by
    exact ⟨_, by decide +kernel, rfl⟩
  obtain ⟨houtcome, rfl⟩ := hresponse
  exact challengeResponse_not_wellFramed _ (hframed.ingress _ houtcome)

end Seamless.Relay
