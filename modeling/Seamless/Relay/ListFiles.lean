import Seamless.Relay.AuthFile
import Seamless.Relay.CidrList

/-!
The two lists that a SIGHUP reads again from their files: the subdomain blocklist and
the IP deny list. The reload of the blocklist keeps the list when the file cannot be
read; that of the deny list says it does.
-/

namespace Seamless.Relay

open Seamless.Common
open Seamless.Library
open Seamless.Library.NetAddr
open Seamless.Library.Text

/-- The lines of a file that count, trimmed. -/
def entryLines (normalise : List Char → List Char) (text : String) : List (List Char) :=
  ((lines text.toList).map normalise).filter fun line =>
    !(line.isEmpty || line.head? == some '#')

/-- The entries of a blocklist file. -/
def blocklistEntries (m : CaseMap) (text : String) : List String :=
  (entryLines (fun line => m.lower (trim line)) text).map String.ofList

/-- `parse_cidr` of `denylist.rs`. -/
def parseDenyCidr (s : List Char) : Option Cidr := parseCidrTrimming id trim s

def denylistEntries (text : String) : List Cidr := (entryLines trim text).filterMap parseDenyCidr

namespace SubdomainBlocklist

def fromFile (m : CaseMap) (file : TokenFile) : List String :=
  match readToString file with
  | .ok text => blocklistEntries m text
  | .error _ => []

def reload (m : CaseMap) (entries : List String) (file : TokenFile) : List String :=
  match readToString file with
  | .ok text => blocklistEntries m text
  | .error _ => entries

end SubdomainBlocklist

def parseDenylistFile (file : TokenFile) : List Cidr :=
  match readToString file with
  | .ok text => denylistEntries text
  | .error _ => []

namespace IpDenyList

def fromFile (file : TokenFile) : List Cidr := parseDenylistFile file

def reload (_entries : List Cidr) (file : TokenFile) : List Cidr := parseDenylistFile file

end IpDenyList

/-- What is found under the paths of the two lists. -/
structure ListFiles where
  blocklist : TokenFile
  denylist : TokenFile

/-- The lists of a relay that was started with `first`, after a SIGHUP for each of
`later`. -/
def listsAfter (m : CaseMap) (first : ListFiles) (later : List ListFiles) : Lists where
  auth := none
  blocklist := some ((later.map ListFiles.blocklist).foldl (SubdomainBlocklist.reload m)
    (SubdomainBlocklist.fromFile m first.blocklist))
  denylist := some ((later.map ListFiles.denylist).foldl IpDenyList.reload
    (IpDenyList.fromFile first.denylist))

/-- The text of the most recent successful read. -/
def lastRead (files : List TokenFile) : Option String :=
  (files.filterMap fun file => (readToString file).toOption).getLast?

/-- Both lists in force are those of the most recent successful reads. -/
def MostRecent (m : CaseMap) (first : ListFiles) (later : List ListFiles) : Prop :=
  (∃ text, lastRead ((first :: later).map ListFiles.blocklist) = some text ∧
    (listsAfter m first later).blocklist = some (blocklistEntries m text)) ∧
  ∃ text, lastRead ((first :: later).map ListFiles.denylist) = some text ∧
    (listsAfter m first later).denylist = some (denylistEntries text)

/-- Where the read of a list failed, its answers are those from before the reload. -/
def KeptOnFailure (m : CaseMap) (first : ListFiles) (later : List ListFiles) (next : ListFiles) :
    Prop :=
  ((readToString next.blocklist).toOption = none → ∀ cfg name, cfg.caseMap = m →
    isBlocked cfg (listsAfter m first (later ++ [next])) name =
      isBlocked cfg (listsAfter m first later) name) ∧
  ((readToString next.denylist).toOption = none → ∀ ip,
    ((listsAfter m first (later ++ [next])).denylist.map fun entries => isDenied entries ip) =
      (listsAfter m first later).denylist.map fun entries => isDenied entries ip)

/-- What is asked of every reload of a sequence. -/
def ReloadsFailSafe (m : CaseMap) (first : ListFiles) (later : List ListFiles) : Prop :=
  (∀ before, before <+: later → MostRecent m first before) ∧
    ∀ before next, before ++ [next] <+: later → KeptOnFailure m first before next

/-- A read of the deny list fails only while the version read last has no entries. -/
def FailsWhenEmpty (first : ListFiles) (later : List ListFiles) : Prop :=
  ∀ before next, before ++ [next] <+: later → (readToString next.denylist).toOption = none →
    ∀ text, lastRead ((first :: before).map ListFiles.denylist) = some text →
      denylistEntries text = []

section Reload

variable {m : CaseMap} {first next : ListFiles} {later before : List ListFiles} {text : String}

theorem lastRead_snoc (files : List TokenFile) (file : TokenFile) :
    lastRead (files ++ [file]) = ((readToString file).toOption).or (lastRead files) := by
  unfold lastRead
  rw [List.filterMap_append]
  cases hread : (readToString file).toOption with
  | none => simp [hread]
  | some text => simp [hread]

theorem blocklist_snoc (m : CaseMap) (first : ListFiles) (later : List ListFiles)
    (next : ListFiles) : (listsAfter m first (later ++ [next])).blocklist =
      (listsAfter m first later).blocklist.map fun entries =>
        SubdomainBlocklist.reload m entries next.blocklist := by
  simp [listsAfter]

theorem denylist_snoc (m : CaseMap) (first : ListFiles) (later : List ListFiles)
    (next : ListFiles) : (listsAfter m first (later ++ [next])).denylist =
      some (parseDenylistFile next.denylist) := by
  simp [listsAfter, IpDenyList.reload]

theorem readToString_of_toOption {file : TokenFile} (h : (readToString file).toOption = some text) :
    readToString file = .ok text := by
  cases hread : readToString file with
  | error e => simp [hread, Except.toOption] at h
  | ok text' => simpa [hread, Except.toOption] using h

theorem readToString_of_toOption_none {file : TokenFile}
    (h : (readToString file).toOption = none) : ∃ e, readToString file = .error e := by
  cases hread : readToString file with
  | error e => exact ⟨e, rfl⟩
  | ok text' => simp [hread, Except.toOption] at h

theorem blocklist_mostRecent (hfirst : ∃ text, readToString first.blocklist = .ok text)
    (later : List ListFiles) :
    ∃ text, lastRead ((first :: later).map ListFiles.blocklist) = some text ∧
      (listsAfter m first later).blocklist = some (blocklistEntries m text) := by
  induction later using List.reverseRecOn with
  | nil =>
      obtain ⟨text, htext⟩ := hfirst
      exact ⟨text, by simp [lastRead, htext, Except.toOption],
        by simp [listsAfter, SubdomainBlocklist.fromFile, htext]⟩
  | append_singleton later next ih =>
      obtain ⟨text, hlast, hlist⟩ := ih
      rw [← List.cons_append, List.map_append, List.map_singleton, lastRead_snoc, blocklist_snoc,
        hlist, hlast]
      cases hread : (readToString next.blocklist).toOption with
      | none =>
          obtain ⟨e, he⟩ := readToString_of_toOption_none hread
          exact ⟨text, rfl, by simp [SubdomainBlocklist.reload, he]⟩
      | some text' =>
          have hok := readToString_of_toOption hread
          exact ⟨text', rfl, by simp [SubdomainBlocklist.reload, hok]⟩

theorem denylist_of_read (hread : readToString next.denylist = .ok text) :
    (listsAfter m first (later ++ [next])).denylist = some (denylistEntries text) := by
  rw [denylist_snoc, parseDenylistFile, hread]

theorem denylist_of_failed (hread : (readToString next.denylist).toOption = none) :
    (listsAfter m first (later ++ [next])).denylist = some [] := by
  obtain ⟨e, he⟩ := readToString_of_toOption_none hread
  rw [denylist_snoc, parseDenylistFile, he]

theorem denylist_mostRecent (hfirst : ∃ text, readToString first.denylist = .ok text)
    (hempty : FailsWhenEmpty first later) (hbefore : before <+: later) :
    ∃ text, lastRead ((first :: before).map ListFiles.denylist) = some text ∧
      (listsAfter m first before).denylist = some (denylistEntries text) := by
  induction before using List.reverseRecOn with
  | nil =>
      obtain ⟨text, htext⟩ := hfirst
      exact ⟨text, by simp [lastRead, htext, Except.toOption],
        by simp [listsAfter, IpDenyList.fromFile, parseDenylistFile, htext]⟩
  | append_singleton before next ih =>
      obtain ⟨text, hlast, -⟩ := ih ((List.prefix_append _ _).trans hbefore)
      rw [← List.cons_append, List.map_append, List.map_singleton, lastRead_snoc, hlast]
      cases hread : (readToString next.denylist).toOption with
      | none =>
          have hnone := hempty before next hbefore hread text hlast
          exact ⟨text, rfl, by rw [denylist_of_failed hread, hnone]⟩
      | some text' =>
          exact ⟨text', rfl, denylist_of_read (readToString_of_toOption hread)⟩

theorem blocklist_of_failed (hread : (readToString next.blocklist).toOption = none) :
    (listsAfter m first (later ++ [next])).blocklist = (listsAfter m first later).blocklist := by
  obtain ⟨e, he⟩ := readToString_of_toOption_none hread
  rw [blocklist_snoc]
  simp [listsAfter, SubdomainBlocklist.reload, he]

theorem sighup_inForce {cfg : Config} {s : System}
    (hblocklist : s.shared.lists.blocklist = (listsAfter m first later).blocklist)
    (hdenylist : s.shared.lists.denylist = (listsAfter m first later).denylist)
    (next : ListFiles) :
    ∃ labels s', TransitionSystem.exec (System.step cfg) s labels = some s' ∧
      s'.shared.lists.blocklist = (listsAfter m first (later ++ [next])).blocklist ∧
      s'.shared.lists.denylist = (listsAfter m first (later ++ [next])).denylist := by
  refine ⟨[.reloadBlocklist ((listsAfter m first (later ++ [next])).blocklist.getD []),
    .reloadDenylist ((listsAfter m first (later ++ [next])).denylist.getD [])], _, rfl, ?_, ?_⟩
  · change s.shared.lists.blocklist.map _ = _
    rw [hblocklist]
    rfl
  · change s.shared.lists.denylist.map _ = _
    rw [hdenylist]
    rfl

end Reload

/-- Reloads fail safe exactly when no read of the deny list fails while the list has
entries. -/
theorem reloadsFailSafe_iff (m : CaseMap) (first : ListFiles)
    (hblocklist : ∃ text, readToString first.blocklist = .ok text)
    (hdenylist : ∃ text, readToString first.denylist = .ok text) (later : List ListFiles) :
    ReloadsFailSafe m first later ↔ FailsWhenEmpty first later := by
  constructor
  · rintro ⟨hrecent, -⟩ before next hnext hfailed text hlast
    obtain ⟨-, text', hlast', hlist⟩ := hrecent (before ++ [next]) hnext
    rw [← List.cons_append, List.map_append, List.map_singleton, lastRead_snoc, hfailed,
      Option.none_or, hlast, Option.some.injEq] at hlast'
    rw [denylist_of_failed hfailed, Option.some.injEq] at hlist
    rw [hlast', ← hlist]
  · intro hempty
    have hrecent : ∀ before, before <+: later → MostRecent m first before := by
      intro before hbefore
      exact ⟨blocklist_mostRecent hblocklist before, denylist_mostRecent hdenylist hempty hbefore⟩
    refine ⟨hrecent, ?_⟩
    intro before next hnext
    constructor
    · intro hfailed cfg name _
      rw [isBlocked, isBlocked, blocklist_of_failed hfailed]
    · intro hfailed ip
      obtain ⟨-, text, hlast, hlist⟩ := hrecent before ((List.prefix_append _ _).trans hnext)
      rw [denylist_of_failed hfailed, hlist, hempty before next hnext hfailed text hlast]

def denyTen : ListFiles := ⟨some (utf8 "admin\n"), some (utf8 "10.0.0.0/8\n")⟩

/-- The deny list cannot be read once, and the network it names is let in. -/
theorem denylist_vanishes :
    (∃ text, readToString denyTen.denylist = .ok text) ∧
    ¬ ReloadsFailSafe .ascii denyTen [⟨none, none⟩] ∧
    ((listsAfter .ascii denyTen []).denylist.map fun entries =>
      isDenied entries (.v4 ⟨10, 1, 2, 3⟩)) = some true ∧
    ((listsAfter .ascii denyTen [⟨none, none⟩]).denylist.map fun entries =>
      isDenied entries (.v4 ⟨10, 1, 2, 3⟩)) = some false := by
  have hbefore : ((listsAfter .ascii denyTen []).denylist.map fun entries =>
      isDenied entries (.v4 ⟨10, 1, 2, 3⟩)) = some true := by
    decide +kernel
  have hafter : ((listsAfter .ascii denyTen [⟨none, none⟩]).denylist.map fun entries =>
      isDenied entries (.v4 ⟨10, 1, 2, 3⟩)) = some false := by
    decide +kernel
  refine ⟨⟨"10.0.0.0/8\n", by decide +kernel⟩, ?_, hbefore, hafter⟩
  rintro ⟨-, hkept⟩
  have hsame := (hkept [] ⟨none, none⟩ List.prefix_rfl).2 rfl (.v4 ⟨10, 1, 2, 3⟩)
  rw [List.nil_append, hafter, hbefore] at hsame
  cases hsame

def denyNone : ListFiles := ⟨some (utf8 "admin\n"), some (utf8 "# none yet\n")⟩

theorem reloadsFailSafe_withoutEntries :
    ReloadsFailSafe .ascii denyNone [⟨none, none⟩] := by
  have hread : readToString denyNone.denylist = .ok "# none yet\n" := by decide +kernel
  refine (reloadsFailSafe_iff .ascii denyNone ⟨"admin\n", by decide +kernel⟩ ⟨_, hread⟩ _).mpr ?_
  rintro before next ⟨rest, hsplit⟩ - text hlast
  cases before with
  | nil =>
      obtain rfl : "# none yet\n" = text := by
        simpa [lastRead, hread, Except.toOption] using hlast
      decide +kernel
  | cons file before => simp at hsplit

end Seamless.Relay
