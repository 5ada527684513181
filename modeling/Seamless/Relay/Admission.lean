import Seamless.Common.ControlFrame
import Seamless.Library.KeyedTable
import Seamless.Library.NetAddr
import Seamless.Library.Text

/-!
The rules by which the relay admits a registration: deny list, tokens, rate
limit, caps and naming policy, with the replies they are refused with.
-/

namespace Seamless.Relay

open Seamless.Common
open Seamless.Library
open Seamless.Library.NetAddr
open Seamless.Library.Text

/-- `ConstantTimeEq::ct_eq` of the crate `subtle` on byte slices: of the crate only
its answer counts. -/
structure ConstantTimeEq where
  ctEq : List UInt8 → List UInt8 → UInt8
  ctEq_eq : ∀ a b, ctEq a b = if a = b then 1 else 0

def ConstantTimeEq.plain : ConstantTimeEq where
  ctEq := fun a b => if a = b then 1 else 0
  ctEq_eq := fun _ _ => rfl

/-- The settings a handler is given when it starts. They do not change. -/
structure Config where
  baseDomain : String
  httpPort : UInt16
  httpsPort : Option UInt16
  -- 0 = unlimited.
  maxTunnelsPerIp : UInt32
  -- 0 = unlimited.
  maxTunnels : UInt32
  -- 0 = unlimited.
  rateLimit : UInt32
  rateWindow : Nat
  reservedSubdomains : List String
  subdomainPrefix : Option String
  subdomainLength : Nat
  -- 0 = no expiry task.
  tunnelMaxAge : UInt64
  allowCustomDomains : Bool
  customDomainAllowlist : List String
  caseMap : CaseMap
  subtle : ConstantTimeEq

def Config.unlimited (baseDomain : String) : Config where
  baseDomain := baseDomain
  httpPort := 80
  httpsPort := none
  maxTunnelsPerIp := 0
  maxTunnels := 0
  rateLimit := 0
  rateWindow := 60000000000
  reservedSubdomains := []
  subdomainPrefix := none
  subdomainLength := 8
  tunnelMaxAge := 0
  allowCustomDomains := true
  customDomainAllowlist := []
  caseMap := .ascii
  subtle := .plain

structure Cidr where
  net : BitVec 32
  mask : BitVec 32
  deriving DecidableEq

/-- The lists an operator may replace while the relay runs. `none` stands for a
list that is not configured. -/
structure Lists where
  auth : Option (List String)
  blocklist : Option (List String)
  denylist : Option (List Cidr)

def Lists.disabled : Lists := ⟨none, none, none⟩

def toIpv4U32 : IpAddr → Option (BitVec 32)
  | .v4 ip => some ip.toBits
  | .v6 ip => ip.toIpv4.map Ipv4Addr.toBits

def isDenied (entries : List Cidr) (ip : IpAddr) : Bool :=
  match toIpv4U32 ip with
  | some bits => entries.any fun cidr => bits &&& cidr.mask == cidr.net
  | none => false

inductive AuthError where
  | required
  | invalid
  deriving Repr, DecidableEq

/-- Every candidate is compared, so that the time taken says nothing about
which of them matched. -/
def AuthPolicy.check (subtle : ConstantTimeEq) (allowed : Option (List String))
    (token : Option String) : Except AuthError Unit :=
  match allowed, token with
  | none, _ => .ok ()
  | some _, none => .error .required
  | some candidates, some t =>
      let tbytes := utf8 t
      let hit := candidates.foldl (fun (hit : UInt8) candidate =>
        let cbytes := utf8 candidate
        let lenMatch : UInt8 := if cbytes.length = tbytes.length then 1 else 0
        let cmpLen := min cbytes.length tbytes.length
        hit ||| (subtle.ctEq (cbytes.take cmpLen) (tbytes.take cmpLen) &&& lenMatch)) 0
      if hit = 1 then .ok () else .error .invalid

abbrev RateTable := KeyedTable String (List Nat)

/-- `RateLimiter::check_and_record`. Times are in nanoseconds; the difference of
two instants saturates at zero. -/
def checkAndRecord (cfg : Config) (table : RateTable) (ip : String) (now : Nat) :
    Bool × RateTable :=
  if cfg.rateLimit = 0 then (true, table)
  else
    let queue := ((table.lookup ip).getD []).filter fun t => now - t < cfg.rateWindow
    if cfg.rateLimit.toNat ≤ queue.length % 2 ^ 32 then (false, table.insert ip queue)
    else (true, table.insert ip (queue ++ [now]))

def validateSubdomain (s : String) : Except String Unit :=
  if s.isEmpty || 63 < s.utf8ByteSize then .error "subdomain must be 1–63 characters"
  else if !s.toList.all fun c => c.isAlphanum || c == '-' then
    .error "subdomain may only contain [a-z0-9-]"
  else if s.toList.head? == some '-' || s.toList.getLast? == some '-' then
    .error "subdomain must not start or end with '-'"
  else .ok ()

def isReserved (cfg : Config) (sub : String) : Bool :=
  cfg.reservedSubdomains.contains (cfg.caseMap.lowerString sub)

def checkPrefix (cfg : Config) (sub : String) : Except String Unit :=
  match cfg.subdomainPrefix with
  | some p =>
      if !p.toList.isPrefixOf (cfg.caseMap.lowerString sub).toList then
        .error ("subdomain must start with '" ++ p ++ "' (prefix enforced by this relay)")
      else .ok ()
  | none => .ok ()

def isBlocked (cfg : Config) (lists : Lists) (sub : String) : Bool :=
  match lists.blocklist with
  | some entries => entries.contains (cfg.caseMap.lowerString sub)
  | none => false

def randomChars : List Char := "abcdefghijklmnopqrstuvwxyz0123456789".toList

/-- The possible results of `random_subdomain_with_length`. -/
def isRandomSubdomain (length : Nat) (s : String) : Bool :=
  s.toList.length == length && s.toList.all fun c => randomChars.contains c

/-- The checks on a requested name, in order; the first failure is the reply. -/
def checkRequested (cfg : Config) (lists : Lists) (requested : String) :
    Except ControlFrame Unit :=
  match validateSubdomain requested with
  | .error e => .error (.error 400 e)
  | .ok _ =>
      if isReserved cfg requested then
        .error (.error 403 ("subdomain '" ++ requested ++
          "' is reserved and cannot be registered"))
      else
        match checkPrefix cfg requested with
        | .error e => .error (.error 403 e)
        | .ok _ =>
            if isBlocked cfg lists requested then
              .error (.error 403 ("subdomain '" ++ requested ++ "' is not available"))
            else .ok ()

def publicUrl (cfg : Config) (sub : String) : String :=
  match cfg.httpsPort with
  | some port =>
      if port = 443 then "https://" ++ sub ++ "." ++ cfg.baseDomain
      else "https://" ++ sub ++ "." ++ cfg.baseDomain ++ ":" ++ toString port.toNat
  | none =>
      if cfg.httpPort = 80 then "http://" ++ sub ++ "." ++ cfg.baseDomain
      else "http://" ++ sub ++ "." ++ cfg.baseDomain ++ ":" ++ toString cfg.httpPort.toNat

def tcpUrl (cfg : Config) (port : UInt16) : String :=
  "tcp://" ++ cfg.baseDomain ++ ":" ++ toString port.toNat

def versionRefusal (version : UInt8) : ControlFrame :=
  .error 400 ("protocol version " ++ toString version.toNat ++ " unsupported")

def authRefusal : AuthError → ControlFrame
  | .required => .error 401 "auth required"
  | .invalid => .error 403 "invalid token"

def rateRefusal : ControlFrame :=
  .error 429 "too many connections from your IP — try again later"

def perIpRefusal (cfg : Config) : ControlFrame :=
  .error 429 ("tunnel limit reached for your IP (" ++ toString cfg.maxTunnelsPerIp.toNat ++
    " max)")

def capacityRefusal (cfg : Config) : ControlFrame :=
  .error 503 ("relay at capacity (" ++ toString cfg.maxTunnels.toNat ++
    " tunnels) — try again later")

def takenRefusal (sub : String) : ControlFrame :=
  .error 409 ("subdomain '" ++ sub ++ "' already registered")

def IsRefusal : ControlFrame → Prop
  | .error _ _ => True
  | _ => False

theorem ConstantTimeEq.ctEq_eq_one (subtle : ConstantTimeEq) {a b : List UInt8} :
    subtle.ctEq a b = 1 ↔ a = b := by
  rw [subtle.ctEq_eq]
  split <;> simp_all

theorem isRefusal_authRefusal (e : AuthError) : IsRefusal (authRefusal e) := by
  cases e <;> trivial

theorem isRefusal_of_checkRequested {cfg : Config} {lists : Lists} {requested : String}
    {reply : ControlFrame} (h : checkRequested cfg lists requested = .error reply) :
    IsRefusal reply := by
  unfold checkRequested at h
  split at h
  · cases h
    trivial
  · split at h
    · cases h
      trivial
    · split at h
      · cases h
        trivial
      · split at h
        · cases h
          trivial
        · cases h

theorem validateSubdomain_chars {s : String} (h : validateSubdomain s = .ok ()) :
    ∀ c ∈ s.toList, c.isAlphanum ∨ c = '-' := by
  unfold validateSubdomain at h
  split at h
  · cases h
  · split at h
    · cases h
    · rename_i hall
      simp only [Bool.not_eq_true', Bool.not_eq_false, List.all_eq_true, Bool.or_eq_true,
        beq_iff_eq] at hall
      exact hall

theorem checkRequested_valid {cfg : Config} {lists : Lists} {requested : String}
    (h : checkRequested cfg lists requested = .ok ()) :
    validateSubdomain requested = .ok () := by
  unfold checkRequested at h
  split at h
  · cases h
  · assumption

theorem colon_notMem_of_validateSubdomain {s : String} (h : validateSubdomain s = .ok ()) :
    ':' ∉ s.toList := by
  intro hmem
  rcases validateSubdomain_chars h ':' hmem with hcolon | hcolon <;> revert hcolon <;> decide

theorem colon_notMem_of_isRandomSubdomain {length : Nat} {s : String}
    (h : isRandomSubdomain length s = true) : ':' ∉ s.toList := by
  intro hmem
  simp only [isRandomSubdomain, Bool.and_eq_true, List.all_eq_true] at h
  have hcolon := h.2 ':' hmem
  revert hcolon
  decide

end Seamless.Relay
