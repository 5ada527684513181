import Mathlib.Data.Finmap
import Seamless.Library.Text
import Seamless.Relay.Reports

/-!
The text of the audit log: one line for each event, with an object in it. Whatever is in
the fields of an event, some of which clients choose, no other events have the same text.
-/

namespace Seamless.Relay

open Seamless.Library
open Seamless.Library.Text

/-! ### The events -/

/-- What `json!` makes of the values. -/
inductive AuditValue where
  | text (s : String)
  | whole (n : Int)
  | flag (b : Bool)
  deriving Repr, DecidableEq

/-- The arguments of `audit_event!`, with the time that it adds. -/
structure AuditRecord where
  ts : Int
  event : String
  fields : List (String × AuditValue)
  deriving Repr, DecidableEq

/-- A `serde_json::Map`, which is equal to another one if they have the same values. -/
abbrev AuditObject := Finmap fun _ : String => AuditValue

def AuditRecord.object (r : AuditRecord) : AuditObject :=
  r.fields.foldl (fun map f => map.insert f.1 f.2)
    (Finmap.insert "event" (.text r.event) (Finmap.insert "ts" (.whole r.ts) ∅))

/-- `serde_json` at the objects of events. -/
structure AuditFormat where
  toString : AuditObject → String
  fromStr : String → Option AuditObject

/-- An object is read back from its text, in which control characters are escaped. -/
structure AuditFormat.Reads (format : AuditFormat) (objects : List AuditObject) : Prop where
  reads : ∀ o ∈ objects, format.fromStr (format.toString o) = some o
  printable : ∀ o ∈ objects, ∀ c ∈ (format.toString o).toList, 32 ≤ c.toNat

/-- Also, nothing is read when another object stands behind it. -/
structure AuditFormat.Sound (format : AuditFormat) (objects : List AuditObject) : Prop
    extends format.Reads objects where
  single : ∀ o ∈ objects, ∀ o' ∈ objects, ∀ rest,
    format.fromStr (format.toString o ++ format.toString o' ++ rest) = none

/-- `write_event` puts a newline behind each line. -/
def fileText (lines : List String) : List Char := lines.flatMap fun line => line.toList ++ ['\n']

def Endpoint.auditFields : Endpoint → List (String × AuditValue)
  | .http sub => [("kind", .text "http"), ("subdomain", .text sub)]
  | .tcp port => [("kind", .text "tcp"), ("port", .whole port.toNat)]

def Usage.auditFields (usage : Usage) : List (String × AuditValue) :=
  [("duration_secs", .whole usage.durationSecs), ("bytes_in", .whole usage.bytesIn.toNat),
    ("bytes_out", .whole usage.bytesOut.toNat)]

/-- The calls of `audit_event!` in `tunnel.rs` and `tcp_passthrough.rs`. -/
def AuditEntry.record (ts : Int) : AuditEntry → AuditRecord
  | .ipDenylisted clientIp => ⟨ts, "ip.denylisted", [("client_ip", .text clientIp)]⟩
  | .authFailure clientIp reason =>
      ⟨ts, "auth.failure", [("client_ip", .text clientIp), ("reason", .text reason)]⟩
  | .tunnelOpen endpoint url clientIp =>
      ⟨ts, "tunnel.open",
        endpoint.auditFields ++ [("url", .text url), ("client_ip", .text clientIp)]⟩
  | .tunnelClose endpoint url clientIp usage =>
      ⟨ts, "tunnel.close",
        endpoint.auditFields ++ [("url", .text url), ("client_ip", .text clientIp)] ++
          usage.auditFields⟩
  | .tunnelKeepaliveTimeout endpoint clientIp usage =>
      ⟨ts, "tunnel.keepalive_timeout",
        endpoint.auditFields ++ [("client_ip", .text clientIp)] ++ usage.auditFields⟩
  | .passthroughDenied peer listenPort =>
      ⟨ts, "tcp_passthrough.denied",
        [("peer", .text peer), ("listen_port", .whole listenPort.toNat),
          ("reason", .text "ip_denylist")]⟩
  | .passthroughGeoBlocked peer listenPort country =>
      ⟨ts, "tcp_passthrough.geo_blocked",
        [("peer", .text peer), ("listen_port", .whole listenPort.toNat),
          ("country", .text country)]⟩
  | .passthroughRateLimited peer listenPort =>
      ⟨ts, "tcp_passthrough.rate_limited",
        [("peer", .text peer), ("listen_port", .whole listenPort.toNat)]⟩
  | .passthroughConnect peer listenPort backend =>
      ⟨ts, "tcp_passthrough.connect",
        [("peer", .text peer), ("listen_port", .whole listenPort.toNat),
          ("backend", .text backend)]⟩
  | .passthroughDisconnect peer listenPort backend bytesIn bytesOut =>
      ⟨ts, "tcp_passthrough.disconnect",
        [("peer", .text peer), ("listen_port", .whole listenPort.toNat),
          ("backend", .text backend), ("bytes_in", .whole bytesIn.toNat),
          ("bytes_out", .whole bytesOut.toNat)]⟩

/-! ### The fields of an object -/

theorem lookup_cons_eq_ite {α : Type} (name key : String) (value : α)
    (fields : List (String × α)) : ((key, value) :: fields).lookup name =
      if name = key then some value else fields.lookup name := by
  rw [List.lookup_cons]
  by_cases hname : name = key
  · rw [if_pos hname, beq_iff_eq.mpr hname]
  · rw [if_neg hname, beq_eq_false_iff_ne.mpr hname]

theorem lookup_insert_eq_ite (name key : String) (value : AuditValue) (o : AuditObject) :
    (Finmap.insert key value o).lookup name = if name = key then some value else o.lookup name := by
  split
  · rename_i hname
    rw [hname, Finmap.lookup_insert]
  · rename_i hname
    exact Finmap.lookup_insert_of_ne o hname

theorem AuditRecord.lookup_object (r : AuditRecord) (name : String) :
    r.object.lookup name = (r.fields.reverse.lookup name).or
      (if name = "event" then some (.text r.event)
        else if name = "ts" then some (.whole r.ts) else none) := by
  rw [object]
  induction r.fields using List.reverseRecOn with
  | nil => simp [lookup_insert_eq_ite]
  | append_singleton fields f ih =>
      obtain ⟨key, value⟩ := f
      rw [List.foldl_append, List.foldl_cons, List.foldl_nil, lookup_insert_eq_ite, ih,
        List.reverse_append, List.reverse_singleton, List.singleton_append, lookup_cons_eq_ite]
      split <;> rfl

namespace AuditFormat

variable {format : AuditFormat} {objects : List AuditObject} {o o' : AuditObject}

theorem Sound.toString_ne_empty (h : format.Sound objects) (ho : o ∈ objects) :
    format.toString o ≠ "" := by
  intro hempty
  have hsingle := h.single o ho o ho ""
  rw [hempty, String.empty_append, String.empty_append, ← hempty, h.reads o ho] at hsingle
  cases hsingle

namespace Reads

theorem of_subset {more : List AuditObject} (h : format.Reads more) (hsub : objects ⊆ more) :
    format.Reads objects where
  reads o ho := h.reads o (hsub ho)
  printable o ho := h.printable o (hsub ho)

theorem notMem_toString (h : format.Reads objects) (ho : o ∈ objects) {c : Char}
    (hc : c.toNat < 32) : c ∉ (format.toString o).toList :=
  fun hmem => absurd (h.printable o ho c hmem) (not_le.mpr hc)

theorem lines_fileText (h : format.Reads objects) :
    lines (fileText (objects.map format.toString)) =
      objects.map fun o => (format.toString o).toList := by
  induction objects with
  | nil => rfl
  | cons o objects ih =>
      have htext : fileText ((o :: objects).map format.toString) =
          (format.toString o).toList ++ '\n' :: fileText (objects.map format.toString) := by
        simp [fileText]
      have hnewline := h.notMem_toString List.mem_cons_self (c := '\n') (by decide)
      have hreturn := h.notMem_toString List.mem_cons_self (c := '\r') (by decide)
      rw [htext, lines_append_newline hnewline, ih (h.of_subset (List.subset_cons_self _ _)),
        List.map_cons]
      exact fun hlast => hreturn (List.mem_of_getLast? hlast)

theorem read_lines (h : format.Reads objects) :
    (lines (fileText (objects.map format.toString))).map
      (fun line => format.fromStr (String.ofList line)) = objects.map some := by
  rw [h.lines_fileText, List.map_map]
  apply List.map_congr_left
  intro o ho
  rw [Function.comp_apply, String.ofList_toList, h.reads o ho]

end Reads

end AuditFormat

/-! ### Different events have different texts -/

namespace AuditValue

def textOf : Option AuditValue → String
  | some (text s) => s
  | some (whole _) | some (flag _) | none => ""

def wholeOf : Option AuditValue → Int
  | some (whole n) => n
  | some (text _) | some (flag _) | none => 0

end AuditValue

section Reader

open AuditValue

variable (get : String → Option AuditValue)

/-- How the fields of an event are found again in its object. -/
def Endpoint.ofFields : Endpoint :=
  if textOf (get "kind") = "http" then .http (textOf (get "subdomain"))
  else .tcp (.ofNat (wholeOf (get "port")).toNat)

def Usage.ofFields : Usage :=
  ⟨wholeOf (get "duration_secs"), .ofNat (wholeOf (get "bytes_in")).toNat,
    .ofNat (wholeOf (get "bytes_out")).toNat⟩

def AuditEntry.ofFields : AuditEntry :=
  let event := textOf (get "event")
  let clientIp := textOf (get "client_ip")
  let peer := textOf (get "peer")
  let listenPort := UInt16.ofNat (wholeOf (get "listen_port")).toNat
  if event = "ip.denylisted" then .ipDenylisted clientIp
  else if event = "auth.failure" then .authFailure clientIp (textOf (get "reason"))
  else if event = "tunnel.open" then
    .tunnelOpen (Endpoint.ofFields get) (textOf (get "url")) clientIp
  else if event = "tunnel.close" then
    .tunnelClose (Endpoint.ofFields get) (textOf (get "url")) clientIp (Usage.ofFields get)
  else if event = "tunnel.keepalive_timeout" then
    .tunnelKeepaliveTimeout (Endpoint.ofFields get) clientIp (Usage.ofFields get)
  else if event = "tcp_passthrough.denied" then .passthroughDenied peer listenPort
  else if event = "tcp_passthrough.geo_blocked" then
    .passthroughGeoBlocked peer listenPort (textOf (get "country"))
  else if event = "tcp_passthrough.rate_limited" then .passthroughRateLimited peer listenPort
  else if event = "tcp_passthrough.connect" then
    .passthroughConnect peer listenPort (textOf (get "backend"))
  else
    .passthroughDisconnect peer listenPort (textOf (get "backend"))
      (.ofNat (wholeOf (get "bytes_in")).toNat) (.ofNat (wholeOf (get "bytes_out")).toNat)

end Reader

theorem AuditEntry.ofFields_record (ts : Int) (e : AuditEntry) :
    AuditEntry.ofFields (fun name => (e.record ts).object.lookup name) = e := by
  simp only [AuditRecord.lookup_object]
  cases e with
  | ipDenylisted clientIp =>
      simp [AuditEntry.ofFields, AuditEntry.record, lookup_cons_eq_ite, AuditValue.textOf]
  | authFailure clientIp reason =>
      simp [AuditEntry.ofFields, AuditEntry.record, lookup_cons_eq_ite, AuditValue.textOf]
  | tunnelOpen endpoint url clientIp =>
      cases endpoint <;>
        simp [AuditEntry.ofFields, AuditEntry.record, lookup_cons_eq_ite, AuditValue.textOf,
          AuditValue.wholeOf, Endpoint.auditFields, Endpoint.ofFields]
  | tunnelClose endpoint url clientIp usage =>
      cases endpoint <;>
        simp [AuditEntry.ofFields, AuditEntry.record, lookup_cons_eq_ite, AuditValue.textOf,
          AuditValue.wholeOf, Endpoint.auditFields, Endpoint.ofFields, Usage.auditFields,
          Usage.ofFields]
  | tunnelKeepaliveTimeout endpoint clientIp usage =>
      cases endpoint <;>
        simp [AuditEntry.ofFields, AuditEntry.record, lookup_cons_eq_ite, AuditValue.textOf,
          AuditValue.wholeOf, Endpoint.auditFields, Endpoint.ofFields, Usage.auditFields,
          Usage.ofFields]
  | passthroughDenied peer listenPort =>
      simp [AuditEntry.ofFields, AuditEntry.record, lookup_cons_eq_ite, AuditValue.textOf,
        AuditValue.wholeOf]
  | passthroughGeoBlocked peer listenPort country =>
      simp [AuditEntry.ofFields, AuditEntry.record, lookup_cons_eq_ite, AuditValue.textOf,
        AuditValue.wholeOf]
  | passthroughRateLimited peer listenPort =>
      simp [AuditEntry.ofFields, AuditEntry.record, lookup_cons_eq_ite, AuditValue.textOf,
        AuditValue.wholeOf]
  | passthroughConnect peer listenPort backend =>
      simp [AuditEntry.ofFields, AuditEntry.record, lookup_cons_eq_ite, AuditValue.textOf,
        AuditValue.wholeOf]
  | passthroughDisconnect peer listenPort backend bytesIn bytesOut =>
      simp [AuditEntry.ofFields, AuditEntry.record, lookup_cons_eq_ite, AuditValue.textOf,
        AuditValue.wholeOf]

theorem AuditEntry.lookup_ts (ts : Int) (e : AuditEntry) :
    (e.record ts).object.lookup "ts" = some (.whole ts) := by
  rw [AuditRecord.lookup_object]
  cases e with
  | tunnelOpen endpoint url clientIp =>
      cases endpoint <;> simp [AuditEntry.record, lookup_cons_eq_ite, Endpoint.auditFields]
  | tunnelClose endpoint url clientIp usage =>
      cases endpoint <;>
        simp [AuditEntry.record, lookup_cons_eq_ite, Endpoint.auditFields, Usage.auditFields]
  | tunnelKeepaliveTimeout endpoint clientIp usage =>
      cases endpoint <;>
        simp [AuditEntry.record, lookup_cons_eq_ite, Endpoint.auditFields, Usage.auditFields]
  | ipDenylisted clientIp => simp [AuditEntry.record, lookup_cons_eq_ite]
  | authFailure clientIp reason => simp [AuditEntry.record, lookup_cons_eq_ite]
  | passthroughDenied peer listenPort => simp [AuditEntry.record, lookup_cons_eq_ite]
  | passthroughGeoBlocked peer listenPort country =>
      simp [AuditEntry.record, lookup_cons_eq_ite]
  | passthroughRateLimited peer listenPort => simp [AuditEntry.record, lookup_cons_eq_ite]
  | passthroughConnect peer listenPort backend => simp [AuditEntry.record, lookup_cons_eq_ite]
  | passthroughDisconnect peer listenPort backend bytesIn bytesOut =>
      simp [AuditEntry.record, lookup_cons_eq_ite]

theorem AuditEntry.eq_of_object {e e' : AuditEntry} {ts ts' : Int}
    (h : (e.record ts).object = (e'.record ts').object) : ts = ts' ∧ e = e' := by
  constructor
  · have hts := AuditEntry.lookup_ts ts e
    rw [h, AuditEntry.lookup_ts ts' e', Option.some.injEq, AuditValue.whole.injEq] at hts
    exact hts.symm
  · rw [← AuditEntry.ofFields_record ts e, h, AuditEntry.ofFields_record ts' e']

def objectsOf (events : List (Int × AuditEntry)) : List AuditObject :=
  events.map fun e => (e.2.record e.1).object

/-- The text that these events have, each with its time. -/
def auditText (format : AuditFormat) (events : List (Int × AuditEntry)) : List Char :=
  fileText ((objectsOf events).map format.toString)

theorem objectsOf_injective : Function.Injective objectsOf := by
  apply List.map_injective_iff.mpr
  rintro ⟨ts, e⟩ ⟨ts', e'⟩ hobject
  obtain ⟨hts, he⟩ := AuditEntry.eq_of_object hobject
  exact Prod.ext hts he

/-! ### A format that can be run -/

/-- The escapes of JSON that the texts below need. -/
def escaped (c : Char) : List Char :=
  if c = '"' ∨ c = '\\' then ['\\', c]
  else if c = '\n' then ['\\', 'n']
  else [c]

def AuditValue.print : AuditValue → String
  | text s => "\"" ++ String.ofList (s.toList.flatMap escaped) ++ "\""
  | whole n => toString n
  | flag b => if b then "true" else "false"

/-- The keys of all events; a map is written in their order. -/
def auditKeys : List String :=
  ["backend", "burst", "bytes_in", "bytes_out", "cert_path", "client_ip", "country", "domain",
    "duration_secs", "enabled", "event", "fingerprint", "kind", "listen_port", "peer", "port",
    "reason", "rps", "subdomain", "ts", "tunnel_id", "url"]

def AuditObject.print (o : AuditObject) : String :=
  "\x7b" ++ ",".intercalate (auditKeys.filterMap fun key =>
    (o.lookup key).map fun v => "\"" ++ key ++ "\":" ++ v.print) ++ "\x7d"

theorem AuditObject.print_toList_ne_nil (o : AuditObject) : o.print.toList ≠ [] := by
  have hopen : "\x7b".toList = ['\x7b'] := by decide
  rw [print, String.toList_append, String.toList_append, hopen]
  exact List.cons_ne_nil _ _

/-- The printer, with a reader for the texts of the given objects. -/
def formatOf (objects : List AuditObject) : AuditFormat where
  toString := AuditObject.print
  fromStr text := objects.find? fun o => o.print == text

theorem sound_formatOf {objects : List AuditObject}
    (hprintable : (objects.all fun o => o.print.toList.all fun c => 32 ≤ c.toNat) = true)
    (hunique : ∀ o ∈ objects, ∀ o' ∈ objects, o.print.toList <+: o'.print.toList → o = o') :
    (formatOf objects).Sound objects where
  reads := by
    intro o ho
    change (formatOf objects).fromStr o.print = some o
    cases hfind : (formatOf objects).fromStr o.print with
    | none => exact absurd (List.find?_eq_none.mp hfind o ho) (by simp)
    | some found =>
        have htext : found.print = o.print := by simpa using List.find?_some hfind
        rw [hunique found (List.mem_of_find?_eq_some hfind) o ho (htext ▸ List.prefix_rfl)]
  printable := by
    intro o ho c hc
    simpa using List.all_eq_true.mp (List.all_eq_true.mp hprintable o ho) c hc
  single := by
    intro o ho o' ho' rest
    apply List.find?_eq_none.mpr
    intro o'' ho''
    rw [beq_iff_eq]
    intro htext
    have hlist := congrArg String.toList htext
    change o''.print.toList = (o.print ++ o'.print ++ rest).toList at hlist
    rw [String.toList_append, String.toList_append, List.append_assoc] at hlist
    obtain rfl : o = o'' := hunique o ho o'' ho'' (hlist ▸ List.prefix_append _ _)
    rw [List.self_eq_append_right, List.append_eq_nil_iff] at hlist
    exact o'.print_toList_ne_nil hlist.1

/-- The reason has a line of its own in it, as if another event had been written. -/
def forgedFailure : AuditEntry :=
  .authFailure "192.0.2.1" "\"\x7d\n\x7b\"event\":\"tunnel.open\"\x7d"

def deniedClient : AuditEntry := .ipDenylisted "192.0.2.1"

/-- No client can forge an event or hide one: the text of the log has the events that were
written, whatever their fields are. -/
theorem auditText_inj (format : AuditFormat) (events events' : List (Int × AuditEntry))
    (hformat : format.Reads (objectsOf events ++ objectsOf events')) :
    auditText format events = auditText format events' ↔ events = events' := by
  constructor
  · intro h
    have hread := (hformat.of_subset (List.subset_append_left _ _)).read_lines
    have hread' := (hformat.of_subset (List.subset_append_right _ _)).read_lines
    rw [auditText, auditText] at h
    rw [h, hread'] at hread
    exact objectsOf_injective (List.map_injective_iff.mpr (Option.some_injective _) hread.symm)
  · rintro rfl
    rfl

/-- The line that the reason has in it, in the text of its event and as an event. -/
theorem auditText_inj_forgedFailure :
    let events := [(7, forgedFailure)]
    let events' := [(7, AuditEntry.authFailure "192.0.2.1" ""), (7, deniedClient)]
    let format := formatOf (objectsOf events ++ objectsOf events')
    auditText format events = ("\x7b\"client_ip\":\"192.0.2.1\",\"event\":\"auth.failure\"," ++
      "\"reason\":\"\\\"\x7d\\n\x7b\\\"event\\\":\\\"tunnel.open\\\"\x7d\",\"ts\":7\x7d\n").toList ∧
    (auditText format events = auditText format events' ↔ events = events') := by
  intro events events' format
  refine ⟨by decide +kernel, auditText_inj format events events' ?_⟩
  exact (sound_formatOf (by decide +kernel) (by decide +kernel)).toReads

end Seamless.Relay
