import Seamless.Library.KeyedTable

/-!
`obtain_certificate`: what a certificate order puts into the world, and what is left of it
when the order fails. The ACME server, Cloudflare and the file system are oracles: each of
their answers is part of the input, in the order in which the code asks for them. A record
whose deletion is tried is deleted.
-/

namespace Seamless.Relay

open Seamless.Library

namespace AcmeOrder

structure AcmeConfig where
  domains : List String
  cloudflareApiToken : Option String

inductive ChallengeType where
  | http01
  | dns01
  deriving DecidableEq

structure Challenge where
  type : ChallengeType
  token : String
  keyAuthorization : String

/-- `other` has the status as it is printed. -/
inductive AuthorizationStatus where
  | pending
  | valid
  | other (status : String)
  deriving DecidableEq

/-- The answer to the request for a TXT record. `unread` is an answer from which no record
id can be read although the record was created. -/
inductive CreateAnswer where
  | refused
  | unread (recordId : String)
  | created (recordId : String)

/-- An authorization, with the answers of Cloudflare for its domain and of the server to
`set_challenge_ready`. -/
structure Authorization where
  domain : String
  status : AuthorizationStatus
  challenges : List Challenge
  zoneId : Option String
  create : CreateAnswer
  ready : Bool

inductive OrderStatus where
  | pending
  | ready
  | processing
  | valid
  | invalid

/-- `unopened` leaves a file alone; `torn n` has emptied it and written `n` bytes. -/
inductive WriteAnswer where
  | written
  | unopened
  | torn (n : Nat)
  deriving DecidableEq

/-- The remaining answers. `account` is the context of the error, if any. The last answer in
`certificate` is the last that has come so far. -/
structure Answers where
  createDir : Bool
  account : Option String
  newOrder : Bool
  authorizations : Option (List Authorization)
  refresh : Nat → Option OrderStatus
  keyPair : Option (List UInt8)
  certParams : Bool
  csr : Bool
  finalize : Bool
  certificate : List (Option (Option (List UInt8)))
  writeCert : WriteAnswer
  writeKey : WriteAnswer

/-- `records` are the TXT records that the call created and that are still there, `inserted`
the tokens that it put into the map. -/
structure World where
  records : List (String × String)
  dnsRecordsToClean : List (String × String)
  challengeTokens : KeyedTable String String
  inserted : List String
  cert : Option (List UInt8)
  key : Option (List UInt8)

/-- The world in which a call begins. -/
def World.start (challengeTokens : KeyedTable String String) (cert key : Option (List UInt8)) :
    World :=
  ⟨[], [], challengeTokens, [], cert, key⟩

inductive Outcome where
  | returned (cert key : List UInt8)
  | failed (context : String)
  | polling

variable (cfg : AcmeConfig) (answers : Answers)

def ChallengeType.text : ChallengeType → String
  | http01 => "Http01"
  | dns01 => "Dns01"

def challengeType : ChallengeType :=
  if cfg.cloudflareApiToken.isSome then .dns01 else .http01

/-- What comes before the first challenge. -/
def placeOrder : Except String (List Authorization) :=
  if !answers.createDir then .error "creating ACME directory"
  else
    match answers.account with
    | some context => .error context
    | none =>
        if !answers.newOrder then .error "creating ACME order"
        else
          match answers.authorizations with
          | none => .error "fetching authorizations"
          | some authorizations => .ok authorizations

def cfCreateTxtRecord (authz : Authorization) (w : World) : Except String Unit × World :=
  let context := "creating CF DNS TXT for " ++ authz.domain
  match authz.zoneId with
  | none => (.error context, w)
  | some zoneId =>
      match authz.create with
      | .refused => (.error context, w)
      | .unread recordId =>
          (.error context, { w with records := w.records ++ [(zoneId, recordId)] })
      | .created recordId =>
          (.ok (), { w with
            records := w.records ++ [(zoneId, recordId)]
            dnsRecordsToClean := w.dnsRecordsToClean ++ [(zoneId, recordId)] })

def insertToken (challenge : Challenge) (w : World) : World :=
  { w with
    challengeTokens := w.challengeTokens.insert challenge.token challenge.keyAuthorization
    inserted := w.inserted ++ [challenge.token] }

/-- What makes a challenge answerable: a TXT record or a token. -/
def provide (authz : Authorization) (challenge : Challenge) (w : World) :
    Except String Unit × World :=
  match cfg.cloudflareApiToken with
  | some _ => cfCreateTxtRecord authz w
  | none => (.ok (), insertToken challenge w)

def Authorization.challenge (authz : Authorization) : Option Challenge :=
  authz.challenges.find? fun c => c.type == challengeType cfg

/-- The loop over the authorizations. -/
def authorize : List Authorization → World → Except String Unit × World
  | [], w => (.ok (), w)
  | authz :: rest, w =>
      match authz.status with
      | .valid => authorize rest w
      | .other status => (.error ("unexpected authorization status: " ++ status), w)
      | .pending =>
          match authz.challenge cfg with
          | none => (.error ("no " ++ (challengeType cfg).text ++ " challenge found"), w)
          | some challenge =>
              match provide cfg authz challenge w with
              | (.error context, w) => (.error context, w)
              | (.ok _, w) =>
                  if authz.ready then authorize rest w
                  else (.error "setting challenge ready", w)

def maxAttempts : Nat := 24

/-- The polls from `attempt` on, of which `left` are left. -/
def awaitReady (refresh : Nat → Option OrderStatus) (attempt : Nat) : Nat → Except String Unit
  | 0 => .ok ()
  | left + 1 =>
      match refresh attempt with
      | none => .error "refreshing order"
      | some .ready => .ok ()
      | some .valid => .ok ()
      | some .invalid =>
          .error ("ACME order became invalid after " ++ toString (attempt + 1) ++ " attempts")
      | some _ =>
          if attempt + 1 = maxAttempts then .error "ACME order did not complete within timeout"
          else awaitReady refresh (attempt + 1) left

/-- What the polls for the certificate come to. -/
inductive Issue where
  | issued (cert key : List UInt8)
  | failed (context : String)
  | polling

def download (key : List UInt8) : List (Option (Option (List UInt8))) → Issue
  | [] => .polling
  | none :: _ => .failed "downloading certificate"
  | some none :: rest => download key rest
  | some (some cert) :: _ => .issued cert key

/-- From the challenges to the certificate. -/
def issue : Issue :=
  match awaitReady answers.refresh 0 maxAttempts with
  | .error context => .failed context
  | .ok _ =>
      match answers.keyPair with
      | none => .failed "generating key pair"
      | some key =>
          if !answers.certParams then .failed "creating cert params"
          else if !answers.csr then .failed "serializing CSR"
          else if !answers.finalize then .failed "finalizing ACME order"
          else download key answers.certificate

def cleanUp (w : World) : World :=
  { w with
    records := match cfg.cloudflareApiToken with
      | some _ => w.records.filter fun r => !w.dnsRecordsToClean.contains r
      | none => w.records
    challengeTokens := ∅ }

/-- What a file holds after a write of `text`. -/
def WriteAnswer.leaves (answer : WriteAnswer) (old : Option (List UInt8)) (text : List UInt8) :
    Option (List UInt8) :=
  match answer with
  | .written => some text
  | .unopened => old
  | .torn n => some (text.take n)

def store (cert key : List UInt8) (w : World) : Outcome × World :=
  match cfg.domains with
  | [] => (.failed "no domains", w)
  | _ :: _ =>
      let w := { w with cert := answers.writeCert.leaves w.cert cert }
      match answers.writeCert with
      | .written =>
          let w := { w with key := answers.writeKey.leaves w.key key }
          match answers.writeKey with
          | .written => (.returned cert key, w)
          | _ => (.failed "writing private key", w)
      | _ => (.failed "writing certificate", w)

def obtainCertificate (w : World) : Outcome × World :=
  match placeOrder answers with
  | .error context => (.failed context, w)
  | .ok authorizations =>
      match authorize cfg authorizations w with
      | (.error context, w) => (.failed context, w)
      | (.ok _, w) =>
          match issue answers with
          | .failed context => (.failed context, w)
          | .polling => (.polling, w)
          | .issued cert key => store cfg answers cert key (cleanUp cfg w)

/-- Nothing of the call is left: its records are deleted, its tokens are gone and the files
are as they were. -/
structure LeavesNothing (w w' : World) : Prop where
  records : w'.records = []
  tokens : ∀ token ∈ w'.inserted, w'.challengeTokens.lookup token = none
  cert : w'.cert = w.cert
  key : w'.key = w.key

/-- The answers for a pending authorization let a record or a token come into the world. -/
def Authorization.provides (authz : Authorization) : Bool :=
  authz.status == .pending && (authz.challenge cfg).isSome &&
    (cfg.cloudflareApiToken.isNone || authz.zoneId.isSome &&
      match authz.create with
      | .refused => false
      | _ => true)

/-- The loop goes on behind the authorization. -/
def Authorization.passes (authz : Authorization) : Bool :=
  authz.status == .valid || authz.status == .pending && (authz.challenge cfg).isSome &&
    (cfg.cloudflareApiToken.isNone || authz.zoneId.isSome &&
      match authz.create with
      | .created _ => true
      | _ => false) && authz.ready

/-- The first authorization that is not valid yet. -/
def firstOpen (authorizations : List Authorization) : Option Authorization :=
  authorizations.find? fun authz => authz.status != .valid

/-- A write that fails without a trace: the file could not be opened, or it was the part of
the text that got written. -/
def WriteAnswer.LeavesOld (answer : WriteAnswer) (old : Option (List UInt8)) (text : List UInt8) :
    Prop :=
  answer = .unopened ∨ ∃ n, answer = .torn n ∧ old = some (text.take n)

/-- When a call that fails leaves nothing behind: no order is placed; or the first
authorization that is not valid yet, if there is one, fails before its record or token is
there, and no certificate is issued; or the failure comes behind the clean-up, without a
domain or in a write without a trace, which is that of the key only if the certificate was in
its file before. -/
inductive CleanFailure (cert key : Option (List UInt8)) : Prop
  | notPlaced {context : String} (hplaced : placeOrder answers = .error context)
  | nothingProvided {authorizations : List Authorization}
      (hplaced : placeOrder answers = .ok authorizations)
      (hfirst : (firstOpen authorizations).all (fun authz => !authz.provides cfg) = true)
      (hissue : (∀ authz ∈ authorizations, authz.passes cfg = true) →
        ∀ newCert newKey, issue answers ≠ .issued newCert newKey)
  | filesKept {authorizations : List Authorization} {newCert newKey : List UInt8}
      (hplaced : placeOrder answers = .ok authorizations)
      (hpass : ∀ authz ∈ authorizations, authz.passes cfg = true)
      (hissue : issue answers = .issued newCert newKey)
      (hkept : cfg.domains = [] ∨ answers.writeCert.LeavesOld cert newCert ∨
        answers.writeCert = .written ∧ cert = some newCert ∧
          answers.writeKey.LeavesOld key newKey)

section Leaks

variable {answers} {authz : Authorization} {challenge : Challenge}
  {authorizations : List Authorization} {w : World}

/-- Something that the call put into the world is there. -/
def World.Leaks (w : World) : Prop :=
  w.records ≠ [] ∨ ∃ token ∈ w.inserted, w.challengeTokens.lookup token ≠ none

theorem leaks_insertToken (challenge : Challenge) (w : World) :
    (insertToken challenge w).Leaks := by
  refine .inr ⟨challenge.token, by simp [insertToken], ?_⟩
  rw [insertToken, AList.lookup_insert]
  simp

theorem World.Leaks.provide (h : w.Leaks) (authz : Authorization) (challenge : Challenge) :
    (provide cfg authz challenge w).2.Leaks := by
  unfold AcmeOrder.provide
  split
  · unfold cfCreateTxtRecord
    split
    · exact h
    · split
      · exact h
      · exact .inl (by simp)
      · exact .inl (by simp)
  · exact leaks_insertToken challenge w

theorem authorize_invariant {I : World → Prop}
    (hprovide : ∀ authz challenge w, I w → I (provide cfg authz challenge w).2)
    (authorizations : List Authorization) (h : I w) : I (authorize cfg authorizations w).2 := by
  induction authorizations generalizing w with
  | nil => exact h
  | cons authz rest ih =>
      unfold authorize
      split
      · exact ih h
      · exact h
      · split
        · exact h
        · rename_i challenge _
          have hprovided := hprovide authz challenge w h
          split
          · rename_i heq
            rw [heq] at hprovided
            exact hprovided
          · rename_i heq
            rw [heq] at hprovided
            split
            · exact ih hprovided
            · exact hprovided

theorem World.Leaks.authorize (h : w.Leaks) (authorizations : List Authorization) :
    (authorize cfg authorizations w).2.Leaks :=
  authorize_invariant cfg (fun authz challenge _ hw => hw.provide cfg authz challenge)
    authorizations h

theorem provide_cases (hstatus : authz.status = .pending)
    (hchallenge : authz.challenge cfg = some challenge) (w : World) :
    (authz.provides cfg = true ∧ (provide cfg authz challenge w).2.Leaks) ∨
      (authz.provides cfg = false ∧
        ∃ context, provide cfg authz challenge w = (.error context, w)) := by
  unfold provide Authorization.provides
  cases htoken : cfg.cloudflareApiToken with
  | none =>
      refine .inl ⟨?_, leaks_insertToken challenge w⟩
      simp [hstatus, hchallenge]
  | some token =>
      unfold cfCreateTxtRecord
      cases hzone : authz.zoneId with
      | none => exact .inr ⟨by simp, _, rfl⟩
      | some zoneId =>
          cases hcreate : authz.create with
          | refused => exact .inr ⟨by simp, _, rfl⟩
          | unread recordId => exact .inl ⟨by simp [hstatus, hchallenge], .inl (by simp)⟩
          | created recordId => exact .inl ⟨by simp [hstatus, hchallenge], .inl (by simp)⟩

theorem authorize_first (authorizations : List Authorization) (w : World) :
    ((firstOpen authorizations).all (fun authz => !authz.provides cfg) = true ∧
      (authorize cfg authorizations w).2 = w) ∨
    ((firstOpen authorizations).all (fun authz => !authz.provides cfg) = false ∧
      (authorize cfg authorizations w).2.Leaks) := by
  induction authorizations with
  | nil => exact .inl ⟨rfl, rfl⟩
  | cons authz rest ih =>
      unfold authorize firstOpen
      cases hstatus : authz.status with
      | valid => simpa [hstatus, firstOpen] using ih
      | other status =>
          refine .inl ⟨?_, rfl⟩
          simp [hstatus, Authorization.provides]
      | pending =>
          cases hchallenge : authz.challenge cfg with
          | none =>
              refine .inl ⟨?_, rfl⟩
              simp [hstatus, Authorization.provides, hchallenge]
          | some challenge =>
              rcases provide_cases cfg hstatus hchallenge w with
                ⟨hprovides, hleaks⟩ | ⟨hprovides, context, hfailed⟩
              · refine .inr ⟨by simp [hstatus, hprovides], ?_⟩
                rcases hprovide : provide cfg authz challenge w with ⟨context | _, w'⟩
                · simpa [hprovide] using hleaks
                · rw [hprovide] at hleaks
                  simp only [hprovide]
                  split
                  · exact hleaks.authorize cfg rest
                  · exact hleaks
              · refine .inl ⟨by simp [hstatus, hprovides], ?_⟩
                simp [hfailed]

theorem passes_of_pending (hstatus : authz.status = .pending)
    (hchallenge : authz.challenge cfg = some challenge) (w : World) :
    authz.passes cfg = ((provide cfg authz challenge w).1.isOk && authz.ready) := by
  unfold provide Authorization.passes
  cases htoken : cfg.cloudflareApiToken with
  | none => simp [hstatus, hchallenge, Except.isOk, Except.toBool]
  | some token =>
      unfold cfCreateTxtRecord
      cases hzone : authz.zoneId with
      | none => simp [hstatus, Except.isOk, Except.toBool]
      | some zoneId =>
          cases hcreate : authz.create <;>
            simp [hstatus, hchallenge, Except.isOk, Except.toBool]

/-- Everything that was created so far is known to the clean-up. -/
def World.Listed (w : World) : Prop :=
  w.records ⊆ w.dnsRecordsToClean ∧ (cfg.cloudflareApiToken = none → w.records = [])

theorem World.Listed.provide {w' : World} (h : w.Listed cfg)
    (hok : provide cfg authz challenge w = (.ok (), w')) : w'.Listed cfg := by
  unfold AcmeOrder.provide at hok
  split at hok
  · rename_i token htoken
    unfold cfCreateTxtRecord at hok
    split at hok
    · cases hok
    · split at hok
      · cases hok
      · cases hok
      · obtain rfl := (Prod.mk.inj hok).2
        refine ⟨?_, fun hnone => by simp [htoken] at hnone⟩
        exact List.append_subset.mpr ⟨List.Subset.trans h.1 (List.subset_append_left _ _),
          List.subset_append_right _ _⟩
  · obtain rfl := (Prod.mk.inj hok).2
    exact h

theorem authorize_ok_iff (authorizations : List Authorization) (w : World) :
    (authorize cfg authorizations w).1 = .ok () ↔
      ∀ authz ∈ authorizations, authz.passes cfg = true := by
  induction authorizations generalizing w with
  | nil => simp [authorize]
  | cons authz rest ih =>
      rw [List.forall_mem_cons, authorize]
      cases hstatus : authz.status with
      | valid =>
          rw [ih w]
          simp [Authorization.passes, hstatus]
      | other status => simp [Authorization.passes, hstatus]
      | pending =>
          cases hchallenge : authz.challenge cfg with
          | none => simp [Authorization.passes, hstatus, hchallenge]
          | some challenge =>
              rw [passes_of_pending cfg hstatus hchallenge w]
              rcases hprovide : provide cfg authz challenge w with ⟨context | _, w'⟩
              · simp [hprovide, Except.isOk, Except.toBool]
              · cases hready : authz.ready with
                | false => simp [hprovide]
                | true => simp [hprovide, ih, Except.isOk, Except.toBool]

theorem World.Listed.authorize {w' : World} (h : w.Listed cfg)
    (hok : authorize cfg authorizations w = (.ok (), w')) : w'.Listed cfg := by
  induction authorizations generalizing w with
  | nil =>
      obtain rfl := (Prod.mk.inj hok).2
      exact h
  | cons authz rest ih =>
      rw [AcmeOrder.authorize] at hok
      split at hok
      · exact ih h hok
      · cases hok
      · split at hok
        · cases hok
        · split at hok
          · cases hok
          · rename_i hprovide
            split at hok
            · exact ih (h.provide cfg hprovide) hok
            · cases hok

theorem provide_files (authz : Authorization) (challenge : Challenge) (w : World) :
    (provide cfg authz challenge w).2.cert = w.cert ∧
      (provide cfg authz challenge w).2.key = w.key := by
  unfold provide
  split
  · unfold cfCreateTxtRecord
    split
    · exact ⟨rfl, rfl⟩
    · split <;> exact ⟨rfl, rfl⟩
  · exact ⟨rfl, rfl⟩

theorem authorize_files (authorizations : List Authorization) (w : World) :
    (authorize cfg authorizations w).2.cert = w.cert ∧
      (authorize cfg authorizations w).2.key = w.key := by
  refine authorize_invariant cfg (I := fun w' => w'.cert = w.cert ∧ w'.key = w.key) ?_
    authorizations ⟨rfl, rfl⟩
  rintro authz challenge w' ⟨hcert, hkey⟩
  obtain ⟨hcert', hkey'⟩ := provide_files cfg authz challenge w'
  exact ⟨hcert'.trans hcert, hkey'.trans hkey⟩

theorem records_cleanUp (h : w.Listed cfg) : (cleanUp cfg w).records = [] := by
  unfold cleanUp
  cases htoken : cfg.cloudflareApiToken with
  | none => exact h.2 htoken
  | some token =>
      rw [List.filter_eq_nil_iff]
      intro record hrecord
      simpa using h.1 hrecord

theorem not_leavesNothing_of_leaks {w' : World} (h : w'.Leaks) : ¬ LeavesNothing w w' := by
  intro hnothing
  rcases h with hrecords | ⟨token, hinserted, hlookup⟩
  · exact hrecords hnothing.records
  · exact hlookup (hnothing.tokens token hinserted)

theorem leaves_eq_iff {answer : WriteAnswer} (hfailed : answer ≠ .written)
    (old : Option (List UInt8)) (text : List UInt8) :
    answer.leaves old text = old ↔ answer.LeavesOld old text := by
  cases answer with
  | written => exact absurd rfl hfailed
  | unopened => simp [WriteAnswer.leaves, WriteAnswer.LeavesOld]
  | torn n => simp [WriteAnswer.leaves, WriteAnswer.LeavesOld, eq_comm]

theorem store_world (newCert newKey : List UInt8) (w : World) (h : cfg.domains ≠ []) :
    (store cfg answers newCert newKey w).2 = { w with
      cert := answers.writeCert.leaves w.cert newCert
      key := if answers.writeCert = .written then answers.writeKey.leaves w.key newKey
        else w.key } := by
  obtain ⟨domain, rest, hdomains⟩ := List.exists_cons_of_ne_nil h
  unfold store
  rw [hdomains]
  cases answers.writeCert with
  | written => cases answers.writeKey <;> rfl
  | unopened => rfl
  | torn n => rfl

theorem store_leavesNothing_iff {w' : World} {newCert newKey : List UInt8} {context : String}
    (hfailed : (store cfg answers newCert newKey w').1 = .failed context)
    (hrecords : w'.records = []) (htokens : w'.challengeTokens = ∅) (hcert : w'.cert = w.cert)
    (hkey : w'.key = w.key) :
    LeavesNothing w (store cfg answers newCert newKey w').2 ↔
      cfg.domains = [] ∨ answers.writeCert.LeavesOld w.cert newCert ∨
        answers.writeCert = .written ∧ w.cert = some newCert ∧
          answers.writeKey.LeavesOld w.key newKey := by
  have hfiles : ∀ cert key, LeavesNothing w { w' with cert := cert, key := key } ↔
      cert = w.cert ∧ key = w.key := by
    intro cert key
    constructor
    · intro hnothing
      exact ⟨hnothing.cert, hnothing.key⟩
    · rintro ⟨rfl, rfl⟩
      refine ⟨hrecords, ?_, rfl, rfl⟩
      intro token _
      change w'.challengeTokens.lookup token = none
      rw [htokens, AList.lookup_empty]
  by_cases hdomains : cfg.domains = []
  · have hsame : (store cfg answers newCert newKey w').2 = w' := by
      rw [store, hdomains]
    rw [hsame]
    exact ⟨fun _ => .inl hdomains, fun _ => (hfiles w'.cert w'.key).mpr ⟨hcert, hkey⟩⟩
  · rw [store_world cfg newCert newKey w' hdomains, hfiles, hcert, hkey, or_iff_right hdomains]
    by_cases hwritten : answers.writeCert = .written
    · have hunwritten : answers.writeKey ≠ .written := by
        intro hboth
        obtain ⟨domain, rest, hcons⟩ := List.exists_cons_of_ne_nil hdomains
        simp [store, hcons, hwritten, hboth] at hfailed
      rw [if_pos hwritten, leaves_eq_iff hunwritten]
      simp [hwritten, WriteAnswer.leaves, WriteAnswer.LeavesOld, eq_comm]
    · rw [if_neg hwritten, leaves_eq_iff hwritten]
      simp [hwritten]

end Leaks

section Failure

variable {cfg answers} {challengeTokens : KeyedTable String String}
  {cert key : Option (List UInt8)} {authorizations : List Authorization}

theorem leavesNothing_iff_of_notIssued (hplaced : placeOrder answers = .ok authorizations)
    (hissue : (∀ authz ∈ authorizations, authz.passes cfg = true) →
      ∀ newCert newKey, issue answers ≠ .issued newCert newKey) :
    LeavesNothing (.start challengeTokens cert key)
        (authorize cfg authorizations (.start challengeTokens cert key)).2 ↔
      CleanFailure cfg answers cert key := by
  rcases authorize_first cfg authorizations (.start challengeTokens cert key) with
    ⟨hfirst, hsame⟩ | ⟨hfirst, hleaks⟩
  · rw [hsame]
    refine ⟨fun _ => .nothingProvided hplaced hfirst hissue, fun _ => ?_⟩
    exact ⟨rfl, by simp [World.start], rfl, rfl⟩
  · refine ⟨fun hnothing => absurd hnothing (not_leavesNothing_of_leaks hleaks), ?_⟩
    rintro (hplaced' | ⟨hplaced', hfirst', -⟩ | ⟨hplaced', hpass, hissued, -⟩)
    · rw [hplaced] at hplaced'
      cases hplaced'
    · obtain rfl := Except.ok.inj (hplaced.symm.trans hplaced')
      rw [hfirst] at hfirst'
      cases hfirst'
    · obtain rfl := Except.ok.inj (hplaced.symm.trans hplaced')
      exact absurd hissued (hissue hpass _ _)

theorem leavesNothing_iff_of_issued {newCert newKey : List UInt8} {w : World} {context : String}
    (hfailed : (store cfg answers newCert newKey (cleanUp cfg w)).1 = .failed context)
    (hplaced : placeOrder answers = .ok authorizations)
    (hpass : ∀ authz ∈ authorizations, authz.passes cfg = true)
    (hissue : issue answers = .issued newCert newKey) (hlisted : w.Listed cfg)
    (hcert : w.cert = cert) (hkey : w.key = key) :
    LeavesNothing (.start challengeTokens cert key)
        (store cfg answers newCert newKey (cleanUp cfg w)).2 ↔
      CleanFailure cfg answers cert key := by
  rw [store_leavesNothing_iff cfg hfailed (records_cleanUp cfg hlisted) rfl
    (show (cleanUp cfg w).cert = (World.start challengeTokens cert key).cert from hcert) hkey]
  constructor
  · exact .filesKept hplaced hpass hissue
  · rintro (hplaced' | ⟨hplaced', -, hissue'⟩ | ⟨-, -, hissue', hkept⟩)
    · rw [hplaced] at hplaced'
      cases hplaced'
    · obtain rfl := Except.ok.inj (hplaced.symm.trans hplaced')
      exact absurd hissue (hissue' hpass _ _)
    · obtain ⟨rfl, rfl⟩ := Issue.issued.inj (hissue.symm.trans hissue')
      exact hkept

/-- A call that fails leaves nothing behind exactly when it fails before its first record or
token, or behind the clean-up with both files as they were. -/
theorem failed_leavesNothing_iff {context : String}
    (hfailed : (obtainCertificate cfg answers (.start challengeTokens cert key)).1 =
      .failed context) :
    LeavesNothing (.start challengeTokens cert key)
        (obtainCertificate cfg answers (.start challengeTokens cert key)).2 ↔
      CleanFailure cfg answers cert key := by
  have hlisted : (World.start challengeTokens cert key).Listed cfg :=
    ⟨List.Subset.refl _, fun _ => rfl⟩
  unfold obtainCertificate at hfailed ⊢
  cases hplaced : placeOrder answers with
  | error context =>
      refine ⟨fun _ => .notPlaced hplaced, fun _ => ?_⟩
      exact ⟨rfl, by simp [World.start], rfl, rfl⟩
  | ok authorizations =>
      rw [hplaced] at hfailed
      have hloop := authorize_ok_iff cfg authorizations (.start challengeTokens cert key)
      have hearly : ((∀ authz ∈ authorizations, authz.passes cfg = true) →
          ∀ newCert newKey, issue answers ≠ .issued newCert newKey) →
          (LeavesNothing (.start challengeTokens cert key)
            (authorize cfg authorizations (.start challengeTokens cert key)).2 ↔
              CleanFailure cfg answers cert key) := leavesNothing_iff_of_notIssued hplaced
      rcases hauthorized : authorize cfg authorizations (.start challengeTokens cert key) with
        ⟨context | _, w⟩
      · rw [hauthorized] at hloop hearly
        simp only [hauthorized]
        apply hearly
        intro hpass
        cases hloop.mpr hpass
      · simp only [hauthorized] at hfailed ⊢
        cases hissue : issue answers with
        | failed context =>
            rw [hauthorized] at hearly
            apply hearly
            intro _ newCert newKey
            simp [hissue]
        | polling =>
            rw [hissue] at hfailed
            cases hfailed
        | issued newCert newKey =>
            obtain ⟨hcert, hkey⟩ :=
              authorize_files cfg authorizations (.start challengeTokens cert key)
            rw [hauthorized] at hloop hcert hkey
            rw [hissue] at hfailed
            exact leavesNothing_iff_of_issued hfailed hplaced (hloop.mp rfl) hissue
              (hlisted.authorize cfg hauthorized) hcert hkey

end Failure

/-- One domain behind Cloudflare, whose record is created. -/
def dnsConfig : AcmeConfig := ⟨["example.com"], some "token"⟩

def openAuthorization : Authorization where
  domain := "example.com"
  status := .pending
  challenges := [⟨.http01, "t", "t.k"⟩, ⟨.dns01, "u", "u.k"⟩]
  zoneId := some "zone"
  create := .created "record"
  ready := true

/-- The order reaches `status`, and the certificate file cannot be opened. -/
def dnsAnswers (status : OrderStatus) : Answers where
  createDir := true
  account := none
  newOrder := true
  authorizations := some [openAuthorization]
  refresh := fun _ => some status
  keyPair := some [107]
  certParams := true
  csr := true
  finalize := true
  certificate := [some none, some (some [99])]
  writeCert := .unopened
  writeKey := .written

theorem failed_leavesNothing_unopened :
    (obtainCertificate dnsConfig (dnsAnswers .ready) (.start ∅ (some [111]) none)).1 =
        .failed "writing certificate" ∧
      LeavesNothing (.start ∅ (some [111]) none)
        (obtainCertificate dnsConfig (dnsAnswers .ready) (.start ∅ (some [111]) none)).2 := by
  have hfailed : (obtainCertificate dnsConfig (dnsAnswers .ready)
      (.start ∅ (some [111]) none)).1 = .failed "writing certificate" := rfl
  refine ⟨hfailed, (failed_leavesNothing_iff hfailed).mpr ?_⟩
  refine .filesKept rfl ?_ rfl (.inr (.inl (.inl rfl)))
  simp [Authorization.passes, Authorization.challenge, challengeType, openAuthorization, dnsConfig]

/-- The server finds the order invalid when the record is already there. -/
theorem invalid_order_leaves_record :
    ¬ ∀ (cfg : AcmeConfig) (answers : Answers) (challengeTokens : KeyedTable String String)
      (cert key : Option (List UInt8)) (context : String),
      (obtainCertificate cfg answers (.start challengeTokens cert key)).1 = .failed context →
        LeavesNothing (.start challengeTokens cert key)
          (obtainCertificate cfg answers (.start challengeTokens cert key)).2 := by
  intro h
  have hnothing := h dnsConfig (dnsAnswers .invalid) ∅ none none _ rfl
  have hrecords : (obtainCertificate dnsConfig (dnsAnswers .invalid)
      (.start ∅ none none)).2.records = [("zone", "record")] := rfl
  rw [hnothing.records] at hrecords
  cases hrecords

end AcmeOrder

end Seamless.Relay
