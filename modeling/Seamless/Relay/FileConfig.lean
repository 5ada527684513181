import Mathlib.Tactic.MkIffOfInductiveProp
import Seamless.Library.NetAddr

/-!
Where the relay's settings come from: the command line, a config file, and the
compiled defaults. The file is merged into the parsed command line, in which a flag
that was not given cannot be told from one that was given its default.
-/

namespace Seamless.Relay

open Seamless.Library.NetAddr

/-- The settings that `main` runs with. -/
@[ext]
structure Args where
  seamAddr : SocketAddr
  httpAddr : SocketAddr
  adminAddr : SocketAddr
  baseDomain : String
  authFile : Option String
  store : String
  logLevel : String
  adminToken : Option String
  httpsAddr : Option SocketAddr
  tlsCert : Option String
  tlsKey : Option String
  tlsSelfSigned : Bool
  maxTunnelsPerIp : UInt32
  webhookUrl : Option String
  cipher : String
  rateLimit : UInt32
  maxTunnels : UInt32
  logFormat : String
  adminAllowCidr : Option String
  adminTlsCert : Option String
  adminTlsKey : Option String
  adminClientCa : Option String
  reservedSubdomains : Option String
  subdomainPrefix : Option String
  subdomainLength : Nat
  tunnelMaxAge : UInt64
  maxBodySize : UInt64
  blocklistFile : Option String
  ipDenylistFile : Option String
  auditLog : Option String
  tunnelKeepalive : UInt64
  acmeEmail : Option String
  acmeDomains : Option String
  acmeDir : Option String
  cloudflareApiToken : Option String
  acmeProduction : Bool
  allowCustomDomains : Bool
  customDomainAllowlist : Option String
  tcpPassthrough : List String
  geoipDb : Option String
  blockCountries : Option String

/-- The TOML file; every entry may be absent. -/
structure FileConfig where
  seamAddr : Option String := none
  httpAddr : Option String := none
  adminAddr : Option String := none
  baseDomain : Option String := none
  authFile : Option String := none
  store : Option String := none
  logLevel : Option String := none
  adminToken : Option String := none
  httpsAddr : Option String := none
  tlsCert : Option String := none
  tlsKey : Option String := none
  tlsSelfSigned : Option Bool := none
  maxTunnelsPerIp : Option UInt32 := none
  webhookUrl : Option String := none
  cipher : Option String := none
  rateLimit : Option UInt32 := none
  maxTunnels : Option UInt32 := none
  logFormat : Option String := none
  adminAllowCidr : Option String := none
  adminTlsCert : Option String := none
  adminTlsKey : Option String := none
  adminClientCa : Option String := none
  reservedSubdomains : Option String := none
  subdomainPrefix : Option String := none
  subdomainLength : Option Nat := none
  tunnelMaxAge : Option UInt64 := none
  maxBodySize : Option UInt64 := none
  blocklistFile : Option String := none
  ipDenylistFile : Option String := none
  auditLog : Option String := none
  tunnelKeepalive : Option UInt64 := none
  acmeEmail : Option String := none
  acmeDomains : Option String := none
  acmeDir : Option String := none
  cloudflareApiToken : Option String := none
  acmeProduction : Option Bool := none
  allowCustomDomains : Option Bool := none
  customDomainAllowlist : Option String := none
  tcpPassthrough : Option (List String) := none
  geoipDb : Option String := none
  blockCountries : Option String := none

/-- The flags that are given on the command line or in the environment. A flag that may
be repeated is given by one value at least. -/
structure CommandLine where
  seamAddr : Option SocketAddr := none
  httpAddr : Option SocketAddr := none
  adminAddr : Option SocketAddr := none
  baseDomain : Option String := none
  authFile : Option String := none
  store : Option String := none
  logLevel : Option String := none
  adminToken : Option String := none
  httpsAddr : Option SocketAddr := none
  tlsCert : Option String := none
  tlsKey : Option String := none
  tlsSelfSigned : Option Bool := none
  maxTunnelsPerIp : Option UInt32 := none
  webhookUrl : Option String := none
  cipher : Option String := none
  rateLimit : Option UInt32 := none
  maxTunnels : Option UInt32 := none
  logFormat : Option String := none
  adminAllowCidr : Option String := none
  adminTlsCert : Option String := none
  adminTlsKey : Option String := none
  adminClientCa : Option String := none
  reservedSubdomains : Option String := none
  subdomainPrefix : Option String := none
  subdomainLength : Option Nat := none
  tunnelMaxAge : Option UInt64 := none
  maxBodySize : Option UInt64 := none
  blocklistFile : Option String := none
  ipDenylistFile : Option String := none
  auditLog : Option String := none
  tunnelKeepalive : Option UInt64 := none
  acmeEmail : Option String := none
  acmeDomains : Option String := none
  acmeDir : Option String := none
  cloudflareApiToken : Option String := none
  acmeProduction : Option Bool := none
  allowCustomDomains : Option Bool := none
  customDomainAllowlist : Option String := none
  tcpPassthrough : Option (List String) := none
  geoipDb : Option String := none
  blockCountries : Option String := none
  tcpPassthrough_ne : tcpPassthrough ≠ some [] := by simp

def unspecified (port : UInt16) : SocketAddr := ⟨.v4 ⟨0, 0, 0, 0⟩, port, 0⟩

/-- The compiled defaults. -/
def Args.defaults : Args where
  seamAddr := unspecified 4443
  httpAddr := unspecified 8080
  adminAddr := unspecified 8088
  baseDomain := "localhost"
  authFile := none
  store := "seamless-relay.json"
  logLevel := "info"
  adminToken := none
  httpsAddr := none
  tlsCert := none
  tlsKey := none
  tlsSelfSigned := false
  maxTunnelsPerIp := 10
  webhookUrl := none
  cipher := "chacha20poly1305"
  rateLimit := 10
  maxTunnels := 1000
  logFormat := "text"
  adminAllowCidr := none
  adminTlsCert := none
  adminTlsKey := none
  adminClientCa := none
  reservedSubdomains := none
  subdomainPrefix := none
  subdomainLength := 8
  tunnelMaxAge := 0
  maxBodySize := 10485760
  blocklistFile := none
  ipDenylistFile := none
  auditLog := none
  tunnelKeepalive := 30
  acmeEmail := none
  acmeDomains := none
  acmeDir := none
  cloudflareApiToken := none
  acmeProduction := false
  allowCustomDomains := false
  customDomainAllowlist := none
  tcpPassthrough := []
  geoipDb := none
  blockCountries := none

/-- `Args::parse`: a flag that is not given has its default. -/
def CommandLine.parse (cl : CommandLine) : Args where
  seamAddr := cl.seamAddr.getD Args.defaults.seamAddr
  httpAddr := cl.httpAddr.getD Args.defaults.httpAddr
  adminAddr := cl.adminAddr.getD Args.defaults.adminAddr
  baseDomain := cl.baseDomain.getD Args.defaults.baseDomain
  authFile := cl.authFile
  store := cl.store.getD Args.defaults.store
  logLevel := cl.logLevel.getD Args.defaults.logLevel
  adminToken := cl.adminToken
  httpsAddr := cl.httpsAddr
  tlsCert := cl.tlsCert
  tlsKey := cl.tlsKey
  tlsSelfSigned := cl.tlsSelfSigned.getD Args.defaults.tlsSelfSigned
  maxTunnelsPerIp := cl.maxTunnelsPerIp.getD Args.defaults.maxTunnelsPerIp
  webhookUrl := cl.webhookUrl
  cipher := cl.cipher.getD Args.defaults.cipher
  rateLimit := cl.rateLimit.getD Args.defaults.rateLimit
  maxTunnels := cl.maxTunnels.getD Args.defaults.maxTunnels
  logFormat := cl.logFormat.getD Args.defaults.logFormat
  adminAllowCidr := cl.adminAllowCidr
  adminTlsCert := cl.adminTlsCert
  adminTlsKey := cl.adminTlsKey
  adminClientCa := cl.adminClientCa
  reservedSubdomains := cl.reservedSubdomains
  subdomainPrefix := cl.subdomainPrefix
  subdomainLength := cl.subdomainLength.getD Args.defaults.subdomainLength
  tunnelMaxAge := cl.tunnelMaxAge.getD Args.defaults.tunnelMaxAge
  maxBodySize := cl.maxBodySize.getD Args.defaults.maxBodySize
  blocklistFile := cl.blocklistFile
  ipDenylistFile := cl.ipDenylistFile
  auditLog := cl.auditLog
  tunnelKeepalive := cl.tunnelKeepalive.getD Args.defaults.tunnelKeepalive
  acmeEmail := cl.acmeEmail
  acmeDomains := cl.acmeDomains
  acmeDir := cl.acmeDir
  cloudflareApiToken := cl.cloudflareApiToken
  acmeProduction := cl.acmeProduction.getD Args.defaults.acmeProduction
  allowCustomDomains := cl.allowCustomDomains.getD Args.defaults.allowCustomDomains
  customDomainAllowlist := cl.customDomainAllowlist
  tcpPassthrough := cl.tcpPassthrough.getD Args.defaults.tcpPassthrough
  geoipDb := cl.geoipDb
  blockCountries := cl.blockCountries

/-- A required field is replaced while it holds its default. -/
def mergeDefault {α : Type} [DecidableEq α] (default : α) (supplied : Option α) (value : α) : α :=
  if value = default then supplied.getD value else value

/-- An optional field is set while it is empty. -/
def mergeOption {α : Type} (supplied value : Option α) : Option α :=
  match value with
  | none => supplied
  | some v => some v

def applyFileConfig (args : Args) (cfg : FileConfig) : Args where
  seamAddr := mergeDefault (unspecified 4443) (cfg.seamAddr.bind parseSocketAddr) args.seamAddr
  httpAddr := mergeDefault (unspecified 8080) (cfg.httpAddr.bind parseSocketAddr) args.httpAddr
  adminAddr := mergeDefault (unspecified 8088) (cfg.adminAddr.bind parseSocketAddr) args.adminAddr
  baseDomain := mergeDefault "localhost" cfg.baseDomain args.baseDomain
  authFile := mergeOption cfg.authFile args.authFile
  store := mergeDefault "seamless-relay.json" cfg.store args.store
  logLevel := mergeDefault "info" cfg.logLevel args.logLevel
  adminToken := mergeOption cfg.adminToken args.adminToken
  httpsAddr := mergeOption (cfg.httpsAddr.bind parseSocketAddr) args.httpsAddr
  tlsCert := mergeOption cfg.tlsCert args.tlsCert
  tlsKey := mergeOption cfg.tlsKey args.tlsKey
  tlsSelfSigned := mergeDefault false cfg.tlsSelfSigned args.tlsSelfSigned
  maxTunnelsPerIp := mergeDefault 10 cfg.maxTunnelsPerIp args.maxTunnelsPerIp
  webhookUrl := mergeOption cfg.webhookUrl args.webhookUrl
  cipher := mergeDefault "chacha20poly1305" cfg.cipher args.cipher
  rateLimit := mergeDefault 10 cfg.rateLimit args.rateLimit
  maxTunnels := mergeDefault 1000 cfg.maxTunnels args.maxTunnels
  logFormat := mergeDefault "text" cfg.logFormat args.logFormat
  adminAllowCidr := mergeOption cfg.adminAllowCidr args.adminAllowCidr
  adminTlsCert := mergeOption cfg.adminTlsCert args.adminTlsCert
  adminTlsKey := mergeOption cfg.adminTlsKey args.adminTlsKey
  adminClientCa := mergeOption cfg.adminClientCa args.adminClientCa
  reservedSubdomains := mergeOption cfg.reservedSubdomains args.reservedSubdomains
  subdomainPrefix := mergeOption cfg.subdomainPrefix args.subdomainPrefix
  subdomainLength := mergeDefault 8 cfg.subdomainLength args.subdomainLength
  tunnelMaxAge := mergeDefault 0 cfg.tunnelMaxAge args.tunnelMaxAge
  maxBodySize := mergeDefault 10485760 cfg.maxBodySize args.maxBodySize
  blocklistFile := mergeOption cfg.blocklistFile args.blocklistFile
  ipDenylistFile := mergeOption cfg.ipDenylistFile args.ipDenylistFile
  auditLog := mergeOption cfg.auditLog args.auditLog
  tunnelKeepalive := mergeDefault 30 cfg.tunnelKeepalive args.tunnelKeepalive
  acmeEmail := mergeOption cfg.acmeEmail args.acmeEmail
  acmeDomains := mergeOption cfg.acmeDomains args.acmeDomains
  acmeDir := mergeOption cfg.acmeDir args.acmeDir
  cloudflareApiToken := mergeOption cfg.cloudflareApiToken args.cloudflareApiToken
  acmeProduction := mergeDefault false cfg.acmeProduction args.acmeProduction
  allowCustomDomains := mergeDefault false cfg.allowCustomDomains args.allowCustomDomains
  customDomainAllowlist := mergeOption cfg.customDomainAllowlist args.customDomainAllowlist
  tcpPassthrough := mergeDefault [] cfg.tcpPassthrough args.tcpPassthrough
  geoipDb := mergeOption cfg.geoipDb args.geoipDb
  blockCountries := mergeOption cfg.blockCountries args.blockCountries

def ciphers : List String := ["chacha20poly1305", "aes256gcm"]

def logFormats : List String := ["text", "json"]

def firstOf {α : Type} (given supplied : Option α) (default : α) : α :=
  (given.or supplied).getD default

/-- What the settings should be: the command line comes first, then what is valid in the
file, then the default. A value of the file is valid if its flag would accept it. -/
def CommandLine.override (cl : CommandLine) (cfg : FileConfig) : Args where
  seamAddr := firstOf cl.seamAddr (cfg.seamAddr.bind parseSocketAddr) Args.defaults.seamAddr
  httpAddr := firstOf cl.httpAddr (cfg.httpAddr.bind parseSocketAddr) Args.defaults.httpAddr
  adminAddr := firstOf cl.adminAddr (cfg.adminAddr.bind parseSocketAddr) Args.defaults.adminAddr
  baseDomain := firstOf cl.baseDomain cfg.baseDomain Args.defaults.baseDomain
  authFile := cl.authFile.or cfg.authFile
  store := firstOf cl.store cfg.store Args.defaults.store
  logLevel := firstOf cl.logLevel cfg.logLevel Args.defaults.logLevel
  adminToken := cl.adminToken.or cfg.adminToken
  httpsAddr := cl.httpsAddr.or (cfg.httpsAddr.bind parseSocketAddr)
  tlsCert := cl.tlsCert.or cfg.tlsCert
  tlsKey := cl.tlsKey.or cfg.tlsKey
  tlsSelfSigned := firstOf cl.tlsSelfSigned cfg.tlsSelfSigned Args.defaults.tlsSelfSigned
  maxTunnelsPerIp := firstOf cl.maxTunnelsPerIp cfg.maxTunnelsPerIp Args.defaults.maxTunnelsPerIp
  webhookUrl := cl.webhookUrl.or cfg.webhookUrl
  cipher := firstOf cl.cipher (cfg.cipher.filter ciphers.contains) Args.defaults.cipher
  rateLimit := firstOf cl.rateLimit cfg.rateLimit Args.defaults.rateLimit
  maxTunnels := firstOf cl.maxTunnels cfg.maxTunnels Args.defaults.maxTunnels
  logFormat :=
    firstOf cl.logFormat (cfg.logFormat.filter logFormats.contains) Args.defaults.logFormat
  adminAllowCidr := cl.adminAllowCidr.or cfg.adminAllowCidr
  adminTlsCert := cl.adminTlsCert.or cfg.adminTlsCert
  adminTlsKey := cl.adminTlsKey.or cfg.adminTlsKey
  adminClientCa := cl.adminClientCa.or cfg.adminClientCa
  reservedSubdomains := cl.reservedSubdomains.or cfg.reservedSubdomains
  subdomainPrefix := cl.subdomainPrefix.or cfg.subdomainPrefix
  subdomainLength := firstOf cl.subdomainLength cfg.subdomainLength Args.defaults.subdomainLength
  tunnelMaxAge := firstOf cl.tunnelMaxAge cfg.tunnelMaxAge Args.defaults.tunnelMaxAge
  maxBodySize := firstOf cl.maxBodySize cfg.maxBodySize Args.defaults.maxBodySize
  blocklistFile := cl.blocklistFile.or cfg.blocklistFile
  ipDenylistFile := cl.ipDenylistFile.or cfg.ipDenylistFile
  auditLog := cl.auditLog.or cfg.auditLog
  tunnelKeepalive := firstOf cl.tunnelKeepalive cfg.tunnelKeepalive Args.defaults.tunnelKeepalive
  acmeEmail := cl.acmeEmail.or cfg.acmeEmail
  acmeDomains := cl.acmeDomains.or cfg.acmeDomains
  acmeDir := cl.acmeDir.or cfg.acmeDir
  cloudflareApiToken := cl.cloudflareApiToken.or cfg.cloudflareApiToken
  acmeProduction := firstOf cl.acmeProduction cfg.acmeProduction Args.defaults.acmeProduction
  allowCustomDomains :=
    firstOf cl.allowCustomDomains cfg.allowCustomDomains Args.defaults.allowCustomDomains
  customDomainAllowlist := cl.customDomainAllowlist.or cfg.customDomainAllowlist
  tcpPassthrough := firstOf cl.tcpPassthrough cfg.tcpPassthrough Args.defaults.tcpPassthrough
  geoipDb := cl.geoipDb.or cfg.geoipDb
  blockCountries := cl.blockCountries.or cfg.blockCountries

/-- A flag is given its default, and the file says something else. -/
def Contradicts {α : Type} (default : α) (given supplied : Option α) : Prop :=
  given = some default ∧ ∃ v, supplied = some v ∧ v ≠ default

/-- No flag that is given its default is contradicted by the file, and where it is up to
the file to choose a cipher or a log format, it names one that exists. -/
@[mk_iff]
structure Agree (cl : CommandLine) (cfg : FileConfig) : Prop where
  seamAddr : ¬ Contradicts Args.defaults.seamAddr cl.seamAddr (cfg.seamAddr.bind parseSocketAddr)
  httpAddr : ¬ Contradicts Args.defaults.httpAddr cl.httpAddr (cfg.httpAddr.bind parseSocketAddr)
  adminAddr :
    ¬ Contradicts Args.defaults.adminAddr cl.adminAddr (cfg.adminAddr.bind parseSocketAddr)
  baseDomain : ¬ Contradicts Args.defaults.baseDomain cl.baseDomain cfg.baseDomain
  store : ¬ Contradicts Args.defaults.store cl.store cfg.store
  logLevel : ¬ Contradicts Args.defaults.logLevel cl.logLevel cfg.logLevel
  tlsSelfSigned : ¬ Contradicts Args.defaults.tlsSelfSigned cl.tlsSelfSigned cfg.tlsSelfSigned
  maxTunnelsPerIp :
    ¬ Contradicts Args.defaults.maxTunnelsPerIp cl.maxTunnelsPerIp cfg.maxTunnelsPerIp
  cipher : ¬ Contradicts Args.defaults.cipher cl.cipher cfg.cipher ∧
    (cl.cipher = none → ∀ v ∈ cfg.cipher, v ∈ ciphers)
  rateLimit : ¬ Contradicts Args.defaults.rateLimit cl.rateLimit cfg.rateLimit
  maxTunnels : ¬ Contradicts Args.defaults.maxTunnels cl.maxTunnels cfg.maxTunnels
  logFormat : ¬ Contradicts Args.defaults.logFormat cl.logFormat cfg.logFormat ∧
    (cl.logFormat = none → ∀ v ∈ cfg.logFormat, v ∈ logFormats)
  subdomainLength :
    ¬ Contradicts Args.defaults.subdomainLength cl.subdomainLength cfg.subdomainLength
  tunnelMaxAge : ¬ Contradicts Args.defaults.tunnelMaxAge cl.tunnelMaxAge cfg.tunnelMaxAge
  maxBodySize : ¬ Contradicts Args.defaults.maxBodySize cl.maxBodySize cfg.maxBodySize
  tunnelKeepalive :
    ¬ Contradicts Args.defaults.tunnelKeepalive cl.tunnelKeepalive cfg.tunnelKeepalive
  acmeProduction : ¬ Contradicts Args.defaults.acmeProduction cl.acmeProduction cfg.acmeProduction
  allowCustomDomains :
    ¬ Contradicts Args.defaults.allowCustomDomains cl.allowCustomDomains cfg.allowCustomDomains

section Merge

variable {α : Type} [DecidableEq α] {default : α}

theorem mergeDefault_checked_iff {accepts : α → Bool} (hdefault : accepts default = true)
    (given supplied : Option α) :
    mergeDefault default supplied (given.getD default) =
        firstOf given (supplied.filter accepts) default ↔
      ¬ Contradicts default given supplied ∧
        (given = none → ∀ v ∈ supplied, accepts v = true) := by
  unfold mergeDefault firstOf Contradicts
  rcases given with _ | g <;> rcases supplied with _ | v
  · simp
  · by_cases hv : accepts v = true
    · simp [Option.filter, hv]
    · have hne : v ≠ default := by
        rintro rfl
        exact hv hdefault
      simp [Option.filter, hv, hne]
  · simp
  · by_cases hg : g = default
    · subst hg
      simp
    · simp [hg]

theorem mergeDefault_iff (given supplied : Option α) :
    mergeDefault default supplied (given.getD default) = firstOf given supplied default ↔
      ¬ Contradicts default given supplied := by
  have hfilter : supplied.filter (fun _ => true) = supplied := by cases supplied <;> rfl
  have hall := @mergeDefault_checked_iff α _ default (fun _ => true) rfl given supplied
  rw [hfilter] at hall
  simpa using hall

omit [DecidableEq α] in
theorem mergeOption_eq_or (given supplied : Option α) :
    mergeOption supplied given = given.or supplied := by
  cases given <;> rfl

end Merge

theorem mergeDefault_listed_iff {default : String} {accepted : List String}
    (hdefault : default ∈ accepted) (given supplied : Option String) :
    mergeDefault default supplied (given.getD default) =
        firstOf given (supplied.filter accepted.contains) default ↔
      ¬ Contradicts default given supplied ∧
        (given = none → ∀ v ∈ supplied, v ∈ accepted) := by
  rw [mergeDefault_checked_iff (by simpa using hdefault)]
  simp

/-- The command line overrides the file exactly when no flag that is given its default is
contradicted by the file, and the file names a cipher and a log format that exist where it
is asked for them. -/
theorem applyFileConfig_eq_override_iff (cl : CommandLine) (cfg : FileConfig) :
    applyFileConfig cl.parse cfg = cl.override cfg ↔ Agree cl cfg := by
  have hrepeated : mergeDefault [] cfg.tcpPassthrough (cl.tcpPassthrough.getD []) =
      firstOf cl.tcpPassthrough cfg.tcpPassthrough [] := by
    rw [mergeDefault_iff]
    rintro ⟨hgiven, -⟩
    exact cl.tcpPassthrough_ne hgiven
  have hcipher := mergeDefault_listed_iff
    (show "chacha20poly1305" ∈ ciphers by simp [ciphers]) cl.cipher cfg.cipher
  have hformat := mergeDefault_listed_iff
    (show "text" ∈ logFormats by simp [logFormats]) cl.logFormat cfg.logFormat
  rw [Args.ext_iff, agree_iff]
  simp only [applyFileConfig, CommandLine.parse, CommandLine.override, Args.defaults,
    mergeOption_eq_or, mergeDefault_iff, hrepeated, hcipher, hformat, true_and, and_true]

/-- The limit is set to ten, which is the default, and the file says fifty. -/
theorem applyFileConfig_overrides_flag :
    let cl : CommandLine := { maxTunnelsPerIp := some 10 }
    let cfg : FileConfig := { maxTunnelsPerIp := some 50 }
    (applyFileConfig cl.parse cfg).maxTunnelsPerIp = 50 ∧
      (cl.override cfg).maxTunnelsPerIp = 10 ∧ applyFileConfig cl.parse cfg ≠ cl.override cfg := by
  intro cl cfg
  have hcode : (applyFileConfig cl.parse cfg).maxTunnelsPerIp = 50 := by decide
  have hflag : (cl.override cfg).maxTunnelsPerIp = 10 := by decide
  refine ⟨hcode, hflag, ?_⟩
  intro heq
  rw [heq, hflag] at hcode
  exact absurd hcode (by decide)

end Seamless.Relay
