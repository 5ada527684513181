import Seamless.Library.Ipv6
import Seamless.Relay.Reports

/-!
The accept loop of a TCP passthrough listener: what `--tcp-passthrough` configures, the
country filter, and the checks that a connection passes before it is forwarded.
-/

namespace Seamless.Relay

open Seamless.Library
open Seamless.Library.NetAddr
open Seamless.Library.Text

/-! ### The configuration -/

structure TcpPassthroughConfig where
  listenPort : UInt16
  backendHost : String
  backendPort : UInt16
  deriving Repr, DecidableEq

inductive PassthroughError where
  | format (text : String)
  | listenPort (text : String)
  | backendPort (text : String)
  deriving Repr, DecidableEq

def PassthroughError.message : PassthroughError → String
  | .format s => "invalid --tcp-passthrough format '" ++ s ++
      "': expected <listen_port>:<backend_host>:<backend_port>"
  | .listenPort s => "invalid listen port '" ++ s ++ "' in --tcp-passthrough"
  | .backendPort s => "invalid backend port '" ++ s ++ "' in --tcp-passthrough"

/-- `str::splitn(3, ':')`. -/
def splitThree (s : List Char) : List (List Char) :=
  match splitAt ':' s with
  | (first, none) => [first]
  | (first, some rest) =>
      match splitAt ':' rest with
      | (second, none) => [first, second]
      | (second, some third) => [first, second, third]

/-- `str::parse::<u16>`. -/
def parseU16 (s : List Char) : Option UInt16 :=
  (parseU64 s).bind fun n => if n.toNat < 2 ^ 16 then some (UInt16.ofNat n.toNat) else none

def TcpPassthroughConfig.parse (s : String) : Except PassthroughError TcpPassthroughConfig :=
  match splitThree s.toList with
  | [first, second, third] =>
      match parseU16 first with
      | none => .error (.listenPort (String.ofList first))
      | some listenPort =>
          match parseU16 third with
          | none => .error (.backendPort (String.ofList third))
          | some backendPort => .ok ⟨listenPort, String.ofList second, backendPort⟩
  | _ => .error (.format s)

/-- The option that a configuration is written as. -/
def TcpPassthroughConfig.text (cfg : TcpPassthroughConfig) : String :=
  String.ofList (decimal cfg.listenPort.toNat ++
    ':' :: (cfg.backendHost.toList ++ ':' :: decimal cfg.backendPort.toNat))

/-- Where `forward` connects to. -/
def TcpPassthroughConfig.backendAddr (cfg : TcpPassthroughConfig) : String :=
  cfg.backendHost ++ ":" ++ toString cfg.backendPort.toNat

theorem parseU16_eq_some_iff {s : List Char} {n : UInt16} :
    parseU16 s = some n ↔ IsNumeral s n.toNat := by
  unfold parseU16
  simp only [Option.bind_eq_some_iff, parseU64_eq_some_iff]
  constructor
  · rintro ⟨m, hm, h⟩
    split at h
    · rename_i hlt
      obtain rfl := Option.some.inj h
      rwa [UInt16.toNat_ofNat_of_lt' hlt]
    · cases h
  · intro h
    have hfits : n.toNat < UInt64.size := n.toNat_lt.trans_le (by decide)
    refine ⟨UInt64.ofNat n.toNat, ?_, ?_⟩
    · rwa [UInt64.toNat_ofNat_of_lt' hfits]
    · rw [UInt64.toNat_ofNat_of_lt' hfits, if_pos n.toNat_lt, UInt16.ofNat_toNat]

theorem splitThree_eq_iff {s first second third : List Char} :
    splitThree s = [first, second, third] ↔
      s = first ++ ':' :: (second ++ ':' :: third) ∧ ':' ∉ first ∧ ':' ∉ second := by
  constructor
  · intro h
    unfold splitThree at h
    split at h
    · cases h
    · rename_i front rest hfirst
      obtain ⟨rfl, hfront⟩ := splitAt_eq_some_iff.mp hfirst
      split at h
      · cases h
      · rename_i middle back hsecond
        obtain ⟨rfl, hmiddle⟩ := splitAt_eq_some_iff.mp hsecond
        cases h
        exact ⟨rfl, hfront, hmiddle⟩
  · rintro ⟨rfl, hfirst, hsecond⟩
    simp only [splitThree, splitAt_eq_some_iff.mpr ⟨rfl, hfirst⟩,
      splitAt_eq_some_iff.mpr ⟨rfl, hsecond⟩]

theorem parseU16_eq_none_iff {s : List Char} :
    parseU16 s = none ↔ ∀ n : UInt16, ¬ IsNumeral s n.toNat := by
  rw [Option.eq_none_iff_forall_not_mem]
  exact forall_congr' fun n => not_congr parseU16_eq_some_iff

theorem colon_notMem_of_isNumeral {s : List Char} {n : Nat} (h : IsNumeral s n) : ':' ∉ s := by
  obtain ⟨digits, hdigits, -, hall, -⟩ := h
  intro hmem
  rcases hdigits with rfl | rfl
  · exact absurd (hall _ hmem) (by decide)
  · rcases List.mem_cons.mp hmem with hplus | hmem
    · exact absurd hplus (by decide)
    · exact absurd (hall _ hmem) (by decide)

theorem exists_splitThree_iff {s : List Char} :
    (∃ first second third, splitThree s = [first, second, third]) ↔ 2 ≤ s.count ':' := by
  simp only [splitThree_eq_iff]
  constructor
  · rintro ⟨first, second, third, rfl, -, -⟩
    simp only [List.count_append, List.count_cons_self]
    omega
  · intro hcount
    obtain ⟨first, rest, rfl, hfirst⟩ := List.eq_append_cons_of_mem
      (List.count_pos_iff.mp (Nat.lt_of_lt_of_le Nat.zero_lt_two hcount))
    rw [List.count_append, List.count_cons_self, List.count_eq_zero.mpr hfirst] at hcount
    have hrest : 0 < rest.count ':' := by omega
    obtain ⟨second, third, rfl, hsecond⟩ :=
      List.eq_append_cons_of_mem (List.count_pos_iff.mp hrest)
    exact ⟨first, second, third, rfl, hfirst, hsecond⟩

theorem TcpPassthroughConfig.parse_eq_ok_iff {s : String} {cfg : TcpPassthroughConfig} :
    parse s = .ok cfg ↔ ∃ first third : List Char,
      s.toList = first ++ ':' :: (cfg.backendHost.toList ++ ':' :: third) ∧
      ':' ∉ cfg.backendHost.toList ∧ IsNumeral first cfg.listenPort.toNat ∧
      IsNumeral third cfg.backendPort.toNat := by
  constructor
  · intro h
    unfold parse at h
    split at h
    · rename_i first second third hsplit
      obtain ⟨hs, -, hsecond⟩ := splitThree_eq_iff.mp hsplit
      split at h
      · cases h
      · rename_i listenPort hlisten
        split at h
        · cases h
        · rename_i backendPort hbackend
          cases h
          refine ⟨first, third, ?_, ?_, parseU16_eq_some_iff.mp hlisten,
            parseU16_eq_some_iff.mp hbackend⟩
          · simpa using hs
          · simpa using hsecond
    · cases h
  · rintro ⟨first, third, hs, hhost, hlisten, hbackend⟩
    have hsplit := splitThree_eq_iff.mpr ⟨hs, colon_notMem_of_isNumeral hlisten, hhost⟩
    simp only [parse, hsplit, parseU16_eq_some_iff.mpr hlisten,
      parseU16_eq_some_iff.mpr hbackend, String.ofList_toList]

theorem TcpPassthroughConfig.parse_text_iff (cfg : TcpPassthroughConfig) :
    parse cfg.text = .ok cfg ↔ ':' ∉ cfg.backendHost.toList := by
  constructor
  · intro h
    obtain ⟨-, -, -, hhost, -⟩ := parse_eq_ok_iff.mp h
    exact hhost
  · intro hhost
    refine parse_eq_ok_iff.mpr ⟨_, _, ?_, hhost, isNumeral_decimal _, isNumeral_decimal _⟩
    rw [text, String.toList_ofList]

theorem TcpPassthroughConfig.parse_eq_format_iff {s t : String} :
    parse s = .error (.format t) ↔ t = s ∧ s.toList.count ':' < 2 := by
  rw [← not_le, ← exists_splitThree_iff]
  unfold parse
  split
  · rename_i first second third hsplit
    constructor
    · intro h
      split at h
      · cases h
      · split at h <;> cases h
    · rintro ⟨-, hnone⟩
      exact absurd ⟨first, second, third, hsplit⟩ hnone
  · rename_i hnone
    constructor
    · intro h
      cases h
      exact ⟨rfl, fun ⟨first, second, third, hsplit⟩ => hnone first second third hsplit⟩
    · rintro ⟨rfl, -⟩
      rfl

theorem TcpPassthroughConfig.parse_eq_listenPort_iff {s t : String} :
    parse s = .error (.listenPort t) ↔ ∃ second third : List Char,
      s.toList = t.toList ++ ':' :: (second ++ ':' :: third) ∧
      ':' ∉ t.toList ∧ ':' ∉ second ∧ ∀ n : UInt16, ¬ IsNumeral t.toList n.toNat := by
  constructor
  · intro h
    unfold parse at h
    split at h
    · rename_i first second third hsplit
      obtain ⟨hs, hfirst, hsecond⟩ := splitThree_eq_iff.mp hsplit
      split at h
      · rename_i hlisten
        cases h
        rw [String.toList_ofList]
        exact ⟨second, third, hs, hfirst, hsecond, parseU16_eq_none_iff.mp hlisten⟩
      · split at h <;> cases h
    · cases h
  · rintro ⟨second, third, hs, hfirst, hsecond, hlisten⟩
    have hsplit := splitThree_eq_iff.mpr ⟨hs, hfirst, hsecond⟩
    simp only [parse, hsplit, parseU16_eq_none_iff.mpr hlisten, String.ofList_toList]

theorem TcpPassthroughConfig.parse_eq_backendPort_iff {s t : String} :
    parse s = .error (.backendPort t) ↔ ∃ (first second : List Char) (listenPort : UInt16),
      s.toList = first ++ ':' :: (second ++ ':' :: t.toList) ∧ ':' ∉ second ∧
      IsNumeral first listenPort.toNat ∧ ∀ n : UInt16, ¬ IsNumeral t.toList n.toNat := by
  constructor
  · intro h
    unfold parse at h
    split at h
    · rename_i first second third hsplit
      obtain ⟨hs, -, hsecond⟩ := splitThree_eq_iff.mp hsplit
      split at h
      · cases h
      · rename_i listenPort hlisten
        split at h
        · rename_i hbackend
          cases h
          rw [String.toList_ofList]
          exact ⟨first, second, listenPort, hs, hsecond, parseU16_eq_some_iff.mp hlisten,
            parseU16_eq_none_iff.mp hbackend⟩
        · cases h
    · cases h
  · rintro ⟨first, second, listenPort, hs, hsecond, hlisten, hbackend⟩
    have hsplit := splitThree_eq_iff.mpr ⟨hs, colon_notMem_of_isNumeral hlisten, hsecond⟩
    simp only [parse, hsplit, parseU16_eq_some_iff.mpr hlisten,
      parseU16_eq_none_iff.mpr hbackend, String.ofList_toList]

/-- What becomes of an option: it is `port:host:port` with a host that has no colon, and then
it has just one reading; or the first part that is wrong is named. -/
theorem passthroughOption_parsed (s : String) :
    (∀ cfg, TcpPassthroughConfig.parse s = .ok cfg ↔ ∃ first third : List Char,
      s.toList = first ++ ':' :: (cfg.backendHost.toList ++ ':' :: third) ∧
      ':' ∉ cfg.backendHost.toList ∧ IsNumeral first cfg.listenPort.toNat ∧
      IsNumeral third cfg.backendPort.toNat) ∧
    (∀ t, TcpPassthroughConfig.parse s = .error (.format t) ↔
      t = s ∧ s.toList.count ':' < 2) ∧
    (∀ t, TcpPassthroughConfig.parse s = .error (.listenPort t) ↔ ∃ second third : List Char,
      s.toList = t.toList ++ ':' :: (second ++ ':' :: third) ∧
      ':' ∉ t.toList ∧ ':' ∉ second ∧ ∀ n : UInt16, ¬ IsNumeral t.toList n.toNat) ∧
    (∀ t, TcpPassthroughConfig.parse s = .error (.backendPort t) ↔
      ∃ (first second : List Char) (listenPort : UInt16),
        s.toList = first ++ ':' :: (second ++ ':' :: t.toList) ∧ ':' ∉ second ∧
        IsNumeral first listenPort.toNat ∧ ∀ n : UInt16, ¬ IsNumeral t.toList n.toNat) ∧
    ∀ cfg : TcpPassthroughConfig, cfg.text = s →
      (TcpPassthroughConfig.parse s = .ok cfg ↔ ':' ∉ cfg.backendHost.toList) := by
  refine ⟨fun cfg => TcpPassthroughConfig.parse_eq_ok_iff,
    fun t => TcpPassthroughConfig.parse_eq_format_iff,
    fun t => TcpPassthroughConfig.parse_eq_listenPort_iff,
    fun t => TcpPassthroughConfig.parse_eq_backendPort_iff, ?_⟩
  rintro cfg rfl
  exact cfg.parse_text_iff

/-! ### The country filter -/

/-- `reader` is the open database: the `iso_code` of the record of an address, where there is
one. `upper` is `str::to_uppercase`. -/
structure GeoipFilter where
  reader : Option (IpAddr → Option String)
  upper : String → String
  blockedCountries : List String

namespace GeoipFilter

def trimmed (s : String) : String := String.ofList (trim s.toList)

/-- `GeoipFilter::new`, with the database as it was opened. -/
def new (reader : Option (IpAddr → Option String)) (upper : String → String)
    (countries : List String) : GeoipFilter :=
  ⟨reader, upper, (countries.map fun c => upper (trimmed c)).filter fun c => !c.isEmpty⟩

def lookupCountry (f : GeoipFilter) (lookup : IpAddr → Option String) (ip : IpAddr) :
    Option String :=
  (lookup ip).map f.upper

def isBlocked (f : GeoipFilter) (ip : IpAddr) : Bool :=
  match f.reader with
  | none => false
  | some lookup =>
      if f.blockedCountries.isEmpty then false
      else
        match f.lookupCountry lookup ip with
        | some cc => f.blockedCountries.contains cc
        | none => false

def countryCode (f : GeoipFilter) (ip : IpAddr) : Option String :=
  f.reader.bind fun lookup => f.lookupCountry lookup ip

theorem isBlocked_iff (f : GeoipFilter) (ip : IpAddr) :
    f.isBlocked ip = true ↔ ∃ cc, f.countryCode ip = some cc ∧ cc ∈ f.blockedCountries := by
  unfold isBlocked countryCode
  cases f.reader with
  | none => simp
  | some lookup =>
      simp only [Option.bind_some]
      constructor
      · intro h
        split at h
        · cases h
        · split at h
          · rename_i cc hcc
            exact ⟨cc, hcc, by simpa using h⟩
          · cases h
      · rintro ⟨cc, hcc, hmem⟩
        have hne : f.blockedCountries.isEmpty = false := by
          cases hlist : f.blockedCountries with
          | nil => simp [hlist] at hmem
          | cons _ _ => rfl
        simp [hne, hcc, hmem]

end GeoipFilter

/-! ### The accept loop -/

/-- `IpDenyList::is_denied`; without a file the list is empty. -/
def Lists.denies (lists : Lists) (ip : IpAddr) : Bool := isDenied (lists.denylist.getD []) ip

/-- Where an accept loop stands: in `accept`, or waiting for the rate limiter. -/
inductive AcceptLoop where
  | accepting
  | limiting (peer : SocketAddr)
  deriving Repr, DecidableEq

structure PassthroughListener where
  cfg : TcpPassthroughConfig
  loop : AcceptLoop
  deriving Repr, DecidableEq

inductive ConnectionPhase where
  | spawned
  | forwarding
  | closed
  deriving Repr, DecidableEq

/-- The task of an accepted connection. -/
structure PassthroughConnection where
  cfg : TcpPassthroughConfig
  peer : SocketAddr
  phase : ConnectionPhase
  deriving Repr, DecidableEq

/-- The checks on a connection that stand before the rate limiter, and what they report. -/
def TcpPassthroughConfig.screen (cfg : TcpPassthroughConfig) (lists : Lists) (geoip : GeoipFilter)
    (peer : SocketAddr) : AcceptLoop × List Notice :=
  if lists.denies peer.ip then
    (.accepting, [.audit (.passthroughDenied peer.toString cfg.listenPort)])
  else
    match geoip.countryCode peer.ip with
    | some cc =>
        if geoip.isBlocked peer.ip then
          (.accepting, [.audit (.passthroughGeoBlocked peer.toString cfg.listenPort cc)])
        else (.limiting peer, [])
    | none =>
        if geoip.isBlocked peer.ip then
          (.accepting, [.audit (.passthroughGeoBlocked peer.toString cfg.listenPort "unknown")])
        else (.limiting peer, [])

/-- What a refusal reports; the metric is counted last. -/
def TcpPassthroughConfig.reportLimited (cfg : TcpPassthroughConfig) (peer : SocketAddr) :
    List Notice :=
  [.audit (.passthroughRateLimited peer.toString cfg.listenPort), .count .rateLimitHits]

def PassthroughConnection.connectEvent (conn : PassthroughConnection) : AuditEntry :=
  .passthroughConnect conn.peer.toString conn.cfg.listenPort conn.cfg.backendAddr

def PassthroughConnection.disconnectEvent (conn : PassthroughConnection)
    (bytesIn bytesOut : UInt64) : AuditEntry :=
  .passthroughDisconnect conn.peer.toString conn.cfg.listenPort conn.cfg.backendAddr
    bytesIn bytesOut

theorem TcpPassthroughConfig.screen_eq (cfg : TcpPassthroughConfig) (lists : Lists)
    (geoip : GeoipFilter) (peer : SocketAddr) :
    cfg.screen lists geoip peer =
      if lists.denies peer.ip then
        (.accepting, [.audit (.passthroughDenied peer.toString cfg.listenPort)])
      else if geoip.isBlocked peer.ip then
        (.accepting, [.audit (.passthroughGeoBlocked peer.toString cfg.listenPort
          ((geoip.countryCode peer.ip).getD ""))])
      else (.limiting peer, []) := by
  unfold screen
  split
  · rfl
  · split
    · rename_i cc hcc
      rw [hcc, Option.getD_some]
    · rename_i hnone
      have hopen : geoip.isBlocked peer.ip = false := by
        rw [Bool.eq_false_iff]
        intro hblocked
        obtain ⟨cc, hcc, -⟩ := (geoip.isBlocked_iff peer.ip).mp hblocked
        rw [hnone] at hcc
        cases hcc
      simp [hopen]

end Seamless.Relay
