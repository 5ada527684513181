import Seamless.Library.Tally
import Seamless.Relay.Service

/-!
The counters of refused connections against the refusals themselves: each counter has the
number of calls that were turned down at its gate, which the texts of the replies tell
apart.
-/

namespace Seamless.Relay

open Seamless.Common
open Seamless.Library
open Seamless.Library.NetAddr
open Seamless.Library.Tally
open Seamless.Library.TransitionSystem

/-- The reply with which a call is refused, or was. -/
def Pc.refusedWith : Pc → Option ControlFrame
  | .refusing reply | .httpRefusing reply | .returned (.error (.refused reply)) => some reply
  | _ => none

def isAuthRefusal (reply : ControlFrame) : Bool :=
  reply == authRefusal .required || reply == authRefusal .invalid

def startsWith (front : String) (s : String) : Bool := front.toList.isPrefixOf s.toList

def isVersionRefusal : ControlFrame → Bool
  | .error code message => code == 400 && startsWith "protocol version " message
  | _ => false

/-- The replies of the name checks; the one to a name that is taken has another code. -/
def isNamingRefusal : ControlFrame → Bool
  | .error code message => code != 409 && startsWith "subdomain " message
  | _ => false

/-- How a refusal is counted. -/
def countedRefusal (cfg : Config) (reply : ControlFrame) : Counter → Bool
  | .authFailures => isAuthRefusal reply
  | .rateLimitHits => reply == rateRefusal
  | .tunnelPerIpRejections => reply == perIpRefusal cfg
  | .tunnelCapRejections => reply == capacityRefusal cfg
  | .subdomainInvalid => isNamingRefusal reply
  | .handshakes => !isAuthRefusal reply && !isVersionRefusal reply

/-- A call that is not refused has got past the version and token checks. -/
def Pc.authenticated : Pc → Bool
  | .start | .awaitRegister => false
  | .returned (.error e) =>
      match e with
      | .bindFailed _ | .noFreePort | .announce _ _ => true
      | _ => false
  | _ => true

def Pc.denylisted : Pc → Bool
  | .returned (.error .denylisted) => true
  | _ => false

/-- The counter has been moved for a call that is at this place. -/
def Pc.counted (cfg : Config) (counter : Counter) (pc : Pc) : Bool :=
  match pc.refusedWith with
  | some reply => countedRefusal cfg reply counter
  | none =>
      match counter with
      | .authFailures => pc.denylisted
      | .handshakes => pc.authenticated
      | _ => false

theorem startsWith_append {front s : String} (h : startsWith front s = true) (t : String) :
    startsWith front (s ++ t) = true := by
  rw [startsWith, List.isPrefixOf_iff_prefix] at h ⊢
  rw [String.toList_append]
  exact h.trans (List.prefix_append _ _)

/-- The code and the first two characters tell at which gate a reply was given. -/
def gate : ControlFrame → UInt16 × List Char
  | .error code message => (code, message.toList.take 2)
  | _ => (0, [])

theorem gate_error_append (code : UInt16) {s : String} (h : 2 ≤ s.toList.length) (t : String) :
    gate (.error code (s ++ t)) = (code, s.toList.take 2) := by
  rw [gate, String.toList_append, List.take_append_of_le_length h]

theorem beq_of_gate {reply reply' : ControlFrame} (h : gate reply ≠ gate reply') :
    (reply == reply') = false := by
  rw [beq_eq_false_iff_ne]
  rintro rfl
  exact h rfl

theorem take_of_startsWith {front s : String} (h : startsWith front s = true)
    (hfront : 2 ≤ front.toList.length) : s.toList.take 2 = front.toList.take 2 := by
  rw [startsWith, List.isPrefixOf_iff_prefix] at h
  obtain ⟨rest, hrest⟩ := h
  rw [← hrest, List.take_append_of_le_length hfront]

theorem gate_of_isVersionRefusal {reply : ControlFrame} (h : isVersionRefusal reply = true) :
    gate reply = (400, ['p', 'r']) := by
  cases reply with
  | error code message =>
      simp only [isVersionRefusal, Bool.and_eq_true, beq_iff_eq] at h
      rw [gate, h.1, take_of_startsWith h.2 (by decide)]
      decide
  | _ => cases h

theorem gate_of_isNamingRefusal {reply : ControlFrame} (h : isNamingRefusal reply = true) :
    (gate reply).1 ≠ 409 ∧ (gate reply).2 = ['s', 'u'] := by
  cases reply with
  | error code message =>
      simp only [isNamingRefusal, Bool.and_eq_true, bne_iff_ne] at h
      rw [gate, take_of_startsWith h.2 (by decide)]
      exact ⟨h.1, (by decide : "subdomain ".toList.take 2 = ['s', 'u'])⟩
  | _ => cases h

theorem isVersionRefusal_of_gate {reply : ControlFrame} (h : gate reply ≠ (400, ['p', 'r'])) :
    isVersionRefusal reply = false := by
  rw [Bool.eq_false_iff]
  exact fun hversion => h (gate_of_isVersionRefusal hversion)

theorem isNamingRefusal_of_gate {reply : ControlFrame}
    (h : (gate reply).1 = 409 ∨ (gate reply).2 ≠ ['s', 'u']) : isNamingRefusal reply = false := by
  rw [Bool.eq_false_iff]
  intro hnaming
  obtain ⟨hcode, htext⟩ := gate_of_isNamingRefusal hnaming
  exact h.elim hcode fun hne => hne htext

theorem isAuthRefusal_of_gate {reply : ControlFrame}
    (h : gate reply ≠ (401, ['a', 'u']) ∧ gate reply ≠ (403, ['i', 'n'])) :
    isAuthRefusal reply = false := by
  have hrequired : gate (authRefusal .required) = (401, ['a', 'u']) := by decide
  have hinvalid : gate (authRefusal .invalid) = (403, ['i', 'n']) := by decide
  rw [isAuthRefusal, beq_of_gate (by rw [hrequired]; exact h.1),
    beq_of_gate (by rw [hinvalid]; exact h.2)]
  rfl

section Gates

variable (cfg : Config)

theorem gate_versionRefusal (version : UInt8) :
    gate (versionRefusal version) = (400, ['p', 'r']) := by
  rw [versionRefusal, String.append_assoc, gate_error_append _ (by decide)]
  decide

theorem gate_rateRefusal : gate rateRefusal = (429, ['t', 'o']) := by
  decide

theorem gate_perIpRefusal : gate (perIpRefusal cfg) = (429, ['t', 'u']) := by
  rw [perIpRefusal, String.append_assoc, gate_error_append _ (by decide)]
  decide

theorem gate_capacityRefusal : gate (capacityRefusal cfg) = (503, ['r', 'e']) := by
  rw [capacityRefusal, String.append_assoc, gate_error_append _ (by decide)]
  decide

theorem gate_takenRefusal (sub : String) : gate (takenRefusal sub) = (409, ['s', 'u']) := by
  rw [takenRefusal, String.append_assoc, gate_error_append _ (by decide)]
  decide

end Gates

section Profiles

variable (cfg : Config) (counter : Counter)

theorem countedRefusal_auth (e : AuthError) :
    countedRefusal cfg (authRefusal e) counter = (counter == .authFailures) := by
  have hgate : gate (authRefusal e) = (401, ['a', 'u']) ∨
      gate (authRefusal e) = (403, ['i', 'n']) := by
    cases e
    · exact .inl (by decide)
    · exact .inr (by decide)
  have hauth : isAuthRefusal (authRefusal e) = true := by cases e <;> decide
  cases counter with
  | authFailures => exact hauth
  | rateLimitHits =>
      refine beq_of_gate ?_
      rw [gate_rateRefusal]
      rcases hgate with hgate | hgate <;> simp [hgate]
  | tunnelPerIpRejections =>
      refine beq_of_gate ?_
      rw [gate_perIpRefusal]
      rcases hgate with hgate | hgate <;> simp [hgate]
  | tunnelCapRejections =>
      refine beq_of_gate ?_
      rw [gate_capacityRefusal]
      rcases hgate with hgate | hgate <;> simp [hgate]
  | subdomainInvalid =>
      refine isNamingRefusal_of_gate (.inr ?_)
      rcases hgate with hgate | hgate <;> simp [hgate]
  | handshakes => simp [countedRefusal, hauth]

theorem countedRefusal_of_gate {reply : ControlFrame} (own : Counter)
    (hauth : gate reply ≠ (401, ['a', 'u']) ∧ gate reply ≠ (403, ['i', 'n']))
    (hversion : gate reply ≠ (400, ['p', 'r']))
    (hrate : own ≠ .rateLimitHits → gate reply ≠ (429, ['t', 'o']))
    (hperIp : own ≠ .tunnelPerIpRejections → gate reply ≠ (429, ['t', 'u']))
    (hcapacity : own ≠ .tunnelCapRejections → gate reply ≠ (503, ['r', 'e']))
    (hnaming : own ≠ .subdomainInvalid → (gate reply).1 = 409 ∨ (gate reply).2 ≠ ['s', 'u'])
    (hown : own ≠ .handshakes → countedRefusal cfg reply own = true) (hne : own ≠ .authFailures) :
    countedRefusal cfg reply counter = (counter == own || counter == .handshakes) := by
  by_cases hcounter : counter = own
  · subst hcounter
    by_cases hhandshakes : counter = .handshakes
    · subst hhandshakes
      simp [countedRefusal, isAuthRefusal_of_gate hauth, isVersionRefusal_of_gate hversion]
    · simp [hown hhandshakes]
  · have hother : (counter == own) = false := by simpa using hcounter
    rw [hother, Bool.false_or]
    cases counter with
    | authFailures => exact isAuthRefusal_of_gate hauth
    | rateLimitHits =>
        exact beq_of_gate (by rw [gate_rateRefusal]; exact hrate (Ne.symm hcounter))
    | tunnelPerIpRejections =>
        exact beq_of_gate (by rw [gate_perIpRefusal]; exact hperIp (Ne.symm hcounter))
    | tunnelCapRejections =>
        exact beq_of_gate (by rw [gate_capacityRefusal]; exact hcapacity (Ne.symm hcounter))
    | subdomainInvalid => exact isNamingRefusal_of_gate (hnaming (Ne.symm hcounter))
    | handshakes =>
        simp [countedRefusal, isAuthRefusal_of_gate hauth, isVersionRefusal_of_gate hversion]

theorem countedRefusal_version (version : UInt8) :
    countedRefusal cfg (versionRefusal version) counter = false := by
  have hgate := gate_versionRefusal version
  cases counter with
  | authFailures => exact isAuthRefusal_of_gate (by simp [hgate])
  | rateLimitHits => exact beq_of_gate (by simp [hgate, gate_rateRefusal])
  | tunnelPerIpRejections => exact beq_of_gate (by simp [hgate, gate_perIpRefusal])
  | tunnelCapRejections => exact beq_of_gate (by simp [hgate, gate_capacityRefusal])
  | subdomainInvalid =>
      change isNamingRefusal (versionRefusal version) = false
      exact isNamingRefusal_of_gate (.inr (by simp [hgate]))
  | handshakes =>
      have hversion : isVersionRefusal (versionRefusal version) = true := by
        have hstart : startsWith "protocol version " "protocol version " = true := by decide
        simp [isVersionRefusal, versionRefusal, String.append_assoc, startsWith_append hstart]
      simp [countedRefusal, hversion]

theorem countedRefusal_rate :
    countedRefusal cfg rateRefusal counter =
      (counter == .rateLimitHits || counter == .handshakes) := by
  have hgate := gate_rateRefusal
  exact countedRefusal_of_gate cfg counter .rateLimitHits (by simp [hgate]) (by simp [hgate])
    (by simp) (by simp [hgate]) (by simp [hgate]) (by simp [hgate])
    (by simp [countedRefusal]) (by simp)

theorem countedRefusal_perIp :
    countedRefusal cfg (perIpRefusal cfg) counter =
      (counter == .tunnelPerIpRejections || counter == .handshakes) := by
  have hgate := gate_perIpRefusal cfg
  exact countedRefusal_of_gate cfg counter .tunnelPerIpRejections (by simp [hgate])
    (by simp [hgate]) (by simp [hgate]) (by simp) (by simp [hgate]) (by simp [hgate])
    (by simp [countedRefusal]) (by simp)

theorem countedRefusal_capacity :
    countedRefusal cfg (capacityRefusal cfg) counter =
      (counter == .tunnelCapRejections || counter == .handshakes) := by
  have hgate := gate_capacityRefusal cfg
  exact countedRefusal_of_gate cfg counter .tunnelCapRejections (by simp [hgate])
    (by simp [hgate]) (by simp [hgate]) (by simp [hgate]) (by simp) (by simp [hgate])
    (by simp [countedRefusal]) (by simp)

theorem countedRefusal_taken (sub : String) :
    countedRefusal cfg (takenRefusal sub) counter = (counter == .handshakes) := by
  have hgate := gate_takenRefusal sub
  rw [countedRefusal_of_gate cfg counter .handshakes (by simp [hgate]) (by simp [hgate])
    (by simp [hgate]) (by simp [hgate]) (by simp [hgate]) (by simp [hgate]) (by simp)
    (by simp), Bool.or_self]

theorem countedRefusal_naming {reply : ControlFrame} (hnaming : isNamingRefusal reply = true) :
    countedRefusal cfg reply counter =
      (counter == .subdomainInvalid || counter == .handshakes) := by
  obtain ⟨hcode, htext⟩ := gate_of_isNamingRefusal hnaming
  have hother : ∀ code text, text ≠ ['s', 'u'] → gate reply ≠ (code, text) := by
    rintro code text hne heq
    exact hne (by rw [← htext, heq])
  exact countedRefusal_of_gate cfg counter .subdomainInvalid
    ⟨hother _ _ (by decide), hother _ _ (by decide)⟩ (hother _ _ (by decide))
    (fun _ => hother _ _ (by decide)) (fun _ => hother _ _ (by decide))
    (fun _ => hother _ _ (by decide)) (by simp) (fun _ => hnaming) (by simp)

end Profiles

theorem startsWith_of_validateSubdomain {s e : String} (h : validateSubdomain s = .error e) :
    startsWith "subdomain " e = true := by
  unfold validateSubdomain at h
  split at h
  · cases h
    decide
  · split at h
    · cases h
      decide
    · split at h
      · cases h
        decide
      · cases h

theorem startsWith_of_checkPrefix {cfg : Config} {s e : String} (h : checkPrefix cfg s = .error e) :
    startsWith "subdomain " e = true := by
  unfold checkPrefix at h
  split at h
  · split at h
    · cases h
      rw [String.append_assoc]
      exact startsWith_append (by decide) _
    · cases h
  · cases h

theorem isNamingRefusal_of_checkRequested {cfg : Config} {lists : Lists} {requested : String}
    {reply : ControlFrame} (h : checkRequested cfg lists requested = .error reply) :
    isNamingRefusal reply = true := by
  unfold checkRequested at h
  split at h
  · rename_i e hvalid
    cases h
    simp [isNamingRefusal, startsWith_of_validateSubdomain hvalid]
  · split at h
    · cases h
      rw [isNamingRefusal, String.append_assoc, startsWith_append (by decide)]
      decide
    · split at h
      · rename_i e hfront
        cases h
        simp [isNamingRefusal, startsWith_of_checkPrefix hfront]
      · split at h
        · cases h
          rw [isNamingRefusal, String.append_assoc, startsWith_append (by decide)]
          decide
        · cases h

def countsOf (counter : Counter) (notices : List Notice) : Nat :=
  notices.countP fun notice => notice == .count counter

section Step

variable {cfg : Config} {i : MuxId} {sh sh' : Shared} {h h' : Handler} {l : CallLocals}
  {m : Moment} {input : Input} (counter : Counter)

theorem counted_refusing (reply : ControlFrame) :
    (Pc.refusing reply).counted cfg counter = countedRefusal cfg reply counter := rfl

theorem counted_of_silent {notices : List Notice} {pc pc' : Pc} (hnotices : notices = [])
    (hrefused : pc.refusedWith = none) (hrefused' : pc'.refusedWith = none)
    (hdenied : pc.denylisted = false) (hdenied' : pc'.denylisted = false)
    (hauthenticated : pc'.authenticated = pc.authenticated) :
    countsOf counter notices + (pc.counted cfg counter).toNat =
      (pc'.counted cfg counter).toNat := by
  subst hnotices
  cases counter <;>
    simp [countsOf, Pc.counted, hrefused, hrefused', hdenied, hdenied', hauthenticated]

theorem counted_of_refusal {notices : List Notice} {pc : Pc} {reply : ControlFrame} (own : Counter)
    (hrefused : pc.refusedWith = none) (hdenied : pc.denylisted = false)
    (hauthenticated : pc.authenticated = true) (hnotices : notices = [.count own])
    (hown : own ≠ .handshakes)
    (hreply : countedRefusal cfg reply counter = (counter == own || counter == .handshakes)) :
    countsOf counter notices + (pc.counted cfg counter).toNat =
      ((Pc.refusing reply).counted cfg counter).toNat := by
  subst hnotices
  have hbefore : pc.counted cfg counter = (counter == .handshakes) := by
    cases counter <;> simp [Pc.counted, hrefused, hdenied, hauthenticated]
  rw [counted_refusing, hreply, hbefore]
  cases counter <;> cases own <;> first | rfl | exact absurd rfl hown

theorem counted_register {lists : Lists} {clientIp : String} (read : RegisterRead) :
    countsOf counter (reportRegister cfg lists clientIp m read) =
      ((afterRegister cfg lists read).counted cfg counter).toNat := by
  cases read with
  | dropped => cases counter <;> rfl
  | slowLoris => cases counter <;> rfl
  | timedOut => cases counter <;> rfl
  | stream r =>
      rcases hread : (readFrame r).1 with e | frame
      · simp only [reportRegister, afterRegister, hread]
        cases counter <;> rfl
      · cases frame with
        | register version token kind =>
            simp only [reportRegister, afterRegister, hread]
            split
            · rw [counted_refusing, countedRefusal_version]
              rfl
            · cases hcheck : AuthPolicy.check cfg.subtle lists.auth token with
              | error e =>
                  dsimp only
                  rw [counted_refusing, countedRefusal_auth]
                  cases counter <;> rfl
              | ok u => cases counter <;> rfl
        | _ =>
            simp only [reportRegister, afterRegister, hread]
            cases counter <;> rfl

theorem counted_proceed (hstep : h.step cfg i sh .proceed = some (h', sh')) :
    countsOf counter (h.report cfg sh l m .proceed) + (h.pc.counted cfg counter).toNat =
      (h'.pc.counted cfg counter).toNat := by
  simp only [Handler.step] at hstep
  split at hstep
  · rename_i hpc
    simp only [Handler.report, hpc]
    cases hlist : sh.lists.denylist with
    | none =>
        rw [hlist] at hstep
        cases hstep
        exact counted_of_silent counter rfl rfl rfl rfl rfl rfl
    | some entries =>
        rw [hlist] at hstep
        dsimp only at hstep ⊢
        split at hstep
        · rename_i hdenied
          cases hstep
          simp only [hdenied, if_true]
          cases counter <;> rfl
        · rename_i hallowed
          cases hstep
          simp only [hallowed, if_false, Bool.false_eq_true]
          exact counted_of_silent counter rfl rfl rfl rfl rfl rfl
  · rename_i kind hpc
    simp only [Handler.report, hpc]
    split at hstep
    · rename_i hunlimited
      cases hstep
      exact counted_of_silent counter (by simp [hunlimited]) rfl rfl rfl rfl rfl
    · rename_i hlimited
      split at hstep
      · cases hstep
      · cases hstep
        rw [Handler.goto_pc, afterPerIpCheck, if_neg hlimited]
        split
        · exact counted_of_refusal counter .tunnelPerIpRejections rfl rfl rfl rfl (by simp)
            (countedRefusal_perIp cfg counter)
        · exact counted_of_silent counter rfl rfl rfl rfl rfl rfl
  · rename_i kind hpc
    simp only [Handler.report, hpc]
    split at hstep
    · rename_i hunlimited
      cases hstep
      exact counted_of_silent counter (by simp [hunlimited]) rfl rfl rfl rfl rfl
    · rename_i hlimited
      split at hstep
      · cases hstep
      · cases hstep
        rw [Handler.goto_pc, afterGlobalCheck, if_neg hlimited]
        split
        · exact counted_of_refusal counter .tunnelCapRejections rfl rfl rfl rfl (by simp)
            (countedRefusal_capacity cfg counter)
        · exact counted_of_silent counter rfl rfl rfl rfl rfl rfl
  · rename_i port hpc
    simp only [Handler.report, hpc]
    split at hstep <;> cases hstep <;> exact counted_of_silent counter rfl rfl rfl rfl rfl rfl
  · rename_i entry hpc
    simp only [Handler.report, hpc]
    split at hstep
    · cases hstep
    · split at hstep
      · cases hstep
        have htaken : (Pc.httpRefusing (takenRefusal entry.subdomain)).counted cfg counter =
            (counter == .handshakes) := countedRefusal_taken cfg counter entry.subdomain
        rw [Handler.goto_pc, htaken]
        cases counter <;> rfl
      · cases hstep
        exact counted_of_silent counter rfl rfl rfl rfl rfl rfl
  · rename_i hpc
    simp only [Handler.report, hpc]
    cases hstep
    exact counted_of_silent counter rfl rfl rfl rfl rfl rfl
  · rename_i port hpc
    simp only [Handler.report, hpc]
    cases hstep
    exact counted_of_silent counter rfl rfl rfl rfl rfl rfl
  · rename_i port hpc
    simp only [Handler.report, hpc]
    cases hstep
    exact counted_of_silent counter rfl rfl rfl rfl rfl rfl
  · rename_i port hpc
    simp only [Handler.report, hpc]
    cases hstep
    exact counted_of_silent counter rfl rfl rfl rfl rfl rfl
  · rename_i endpoint hpc
    simp only [Handler.report, hpc]
    split at hstep
    · cases hstep
    · cases hstep
      cases counter <;> rfl
  · cases hstep

theorem counted_named {random : String} {unixNow : Int} {now : Nat}
    (hstep : h.step cfg i sh (.named random unixNow now) = some (h', sh')) :
    countsOf counter (h.report cfg sh l m (.named random unixNow now)) +
        (h.pc.counted cfg counter).toNat = (h'.pc.counted cfg counter).toNat := by
  simp only [Handler.step] at hstep
  split at hstep
  · rename_i subdomain hpc
    obtain ⟨pc, hnaming, heq⟩ := Option.map_eq_some_iff.mp hstep
    obtain ⟨rfl, rfl⟩ := Prod.mk.inj heq
    simp only [Handler.report, hpc]
    cases subdomain with
    | none =>
        simp only [afterNaming] at hnaming
        split at hnaming
        · cases hnaming
          exact counted_of_silent counter rfl rfl rfl rfl rfl rfl
        · cases hnaming
    | some requested =>
        simp only [afterNaming] at hnaming
        cases hcheck : checkRequested cfg sh.lists requested with
        | error reply =>
            rw [hcheck] at hnaming
            simp only [hcheck]
            cases hnaming
            exact counted_of_refusal counter .subdomainInvalid rfl rfl rfl rfl (by simp)
              (countedRefusal_naming cfg counter (isNamingRefusal_of_checkRequested hcheck))
        | ok u =>
            rw [hcheck] at hnaming
            simp only [hcheck]
            cases hnaming
            exact counted_of_silent counter rfl rfl rfl rfl rfl rfl
  · cases hstep

theorem counted_step (hstep : h.step cfg i sh input = some (h', sh')) :
    countsOf counter (h.report cfg sh l m input) + (h.pc.counted cfg counter).toNat =
      (h'.pc.counted cfg counter).toNat := by
  cases input with
  | proceed => exact counted_proceed counter hstep
  | named random unixNow now => exact counted_named counter hstep
  | received read =>
      simp only [Handler.step] at hstep
      split at hstep
      · rename_i hpc
        cases hstep
        simp only [Handler.report, hpc, Handler.goto_pc]
        rw [counted_register counter read]
        cases counter <;> rfl
      · cases hstep
  | instant now =>
      simp only [Handler.step] at hstep
      split at hstep
      · rename_i kind hpc
        cases hstep
        simp only [Handler.report, hpc, Handler.goto_pc]
        split
        · exact counted_of_silent counter rfl rfl rfl rfl rfl rfl
        · exact counted_of_refusal counter .rateLimitHits rfl rfl rfl rfl (by simp)
            (countedRefusal_rate cfg counter)
      · cases hstep
  | picked port =>
      simp only [Handler.step] at hstep
      split at hstep
      · rename_i tries hpc
        split at hstep
        · cases hstep
          simp only [hpc, Handler.goto_pc]
          split <;> exact counted_of_silent counter rfl rfl rfl rfl rfl rfl
        · cases hstep
      · cases hstep
  | bound ok =>
      simp only [Handler.step] at hstep
      split at hstep
      · rename_i port tries hpc
        rw [hpc]
        split at hstep
        · split at hstep
          · cases hstep
          · cases hstep
            exact counted_of_silent counter rfl rfl rfl rfl rfl rfl
        · cases hstep
          exact counted_of_silent counter rfl rfl rfl rfl rfl rfl
      · rename_i port hpc
        rw [hpc]
        split at hstep
        · split at hstep
          · cases hstep
          · cases hstep
            exact counted_of_silent counter rfl rfl rfl rfl rfl rfl
        · cases hstep
          exact counted_of_silent counter rfl rfl rfl rfl rfl rfl
      · cases hstep
  | wrote fault =>
      simp only [Handler.step] at hstep
      split at hstep
      · rename_i reply hpc
        cases hstep
        simp only [Handler.report, hpc]
        exact Nat.zero_add _
      · rename_i reply hpc
        cases hstep
        simp only [Handler.report, hpc]
        exact Nat.zero_add _
      · rename_i endpoint hpc
        rcases hwrite : h.write fault (.registered (endpoint.url cfg)) with ⟨e | _, w⟩
        · rw [hwrite] at hstep
          cases hstep
          simp only [Handler.report, hpc, hwrite]
          exact counted_of_silent counter rfl rfl rfl rfl rfl rfl
        · rw [hwrite] at hstep
          cases hstep
          simp only [Handler.report, hpc, hwrite]
          cases endpoint <;> cases counter <;> rfl
      · cases hstep
  | clocks unixNow now =>
      simp only [Handler.step] at hstep
      split at hstep
      · rename_i port hpc
        split at hstep
        · cases hstep
        · cases hstep
          rw [hpc]
          exact counted_of_silent counter rfl rfl rfl rfl rfl rfl
      · cases hstep
  | disconnected =>
      simp only [Handler.step] at hstep
      split at hstep
      · rename_i endpoint hpc
        split at hstep
        · cases hstep
          rw [hpc]
          cases endpoint <;> exact counted_of_silent counter rfl rfl rfl rfl rfl rfl
        · cases hstep
      · cases hstep
  | ticked fault =>
      simp only [Handler.step] at hstep
      split at hstep
      · rename_i endpoint hpc
        rcases hwrite : h.write fault .ping with ⟨e | _, w⟩
        · rw [hwrite] at hstep
          cases hstep
          rw [hpc]
          cases endpoint <;> exact counted_of_silent counter rfl rfl rfl rfl rfl rfl
        · have hw : w.pc = h.pc := by rw [← Handler.write_pc h fault .ping, hwrite]
          rw [hwrite] at hstep
          cases hstep
          rw [hw]
          exact Nat.zero_add _
      · cases hstep
  | drained n =>
      simp only [Handler.step] at hstep
      split at hstep
      · rename_i endpoint hpc
        split at hstep
        · cases hstep
          exact Nat.zero_add _
        · cases hstep
          rw [hpc]
          cases endpoint <;> exact counted_of_silent counter rfl rfl rfl rfl rfl rfl
      · cases hstep

end Step

namespace Service

/-- How often a counter was moved. -/
def tally (s : Service) (counter : Counter) : Nat :=
  s.journal.countP fun r => r.2 == .count counter

def refusedConnections (s : Service) : Nat :=
  s.turnedAway.countP fun ask => ask.who matches .listener _

/-- The number of refusals that a counter stands for. -/
def refusals (cfg : ServiceConfig) (s : Service) (counter : Counter) : Nat :=
  s.system.handlers.countP (fun h => h.pc.counted cfg.relay counter) +
    if counter = .rateLimitHits then s.refusedConnections else 0

structure Counted (cfg : ServiceConfig) (s : Service) : Prop where
  metrics : ∀ counter, s.metrics.get counter = UInt64.ofNat (s.tally counter)
  exact : ∀ counter, s.tally counter = s.refusals cfg counter

section Tally

variable {cfg : ServiceConfig} {s s' : Service} (counter : Counter)

theorem get_foldl_record (notices : List Notice) (metrics : Metrics) :
    (notices.foldl Metrics.record metrics).get counter =
      metrics.get counter + UInt64.ofNat (countsOf counter notices) := by
  induction notices generalizing metrics with
  | nil => simp [countsOf]
  | cons notice notices ih =>
      rw [List.foldl_cons, ih, Metrics.get_record]
      by_cases hcount : notice = .count counter
      · have hlength : countsOf counter (notice :: notices) = countsOf counter notices + 1 := by
          simp [countsOf, hcount]
        rw [if_pos hcount, hlength, ofNat_succ, UInt64.add_assoc, UInt64.add_comm 1]
      · have hlength : countsOf counter (notice :: notices) = countsOf counter notices := by
          simp [countsOf, hcount]
        rw [if_neg hcount, hlength]

theorem tally_report (s : Service) (who : Reporter) (notices : List Notice) :
    (s.report who notices).tally counter = s.tally counter + countsOf counter notices := by
  simp [tally, report, countsOf, List.countP_append, List.countP_map, Function.comp_def]

theorem metrics_report (who : Reporter) (notices : List Notice)
    (hs : ∀ counter, s.metrics.get counter = UInt64.ofNat (s.tally counter)) :
    (s.report who notices).metrics.get counter =
      UInt64.ofNat ((s.report who notices).tally counter) := by
  rw [tally_report, UInt64.ofNat_add, ← hs counter]
  exact get_foldl_record counter notices s.metrics

theorem Counted.report_silent (hs : s.Counted cfg) {who : Reporter} {notices : List Notice}
    (hsame : s'.metrics = s.metrics ∧ s'.journal = s.journal ∧ s'.turnedAway = s.turnedAway ∧
      s'.system.handlers = s.system.handlers)
    (hnotices : ∀ counter, countsOf counter notices = 0) : (s'.report who notices).Counted cfg := by
  obtain ⟨hmetrics, hjournal, hturned, hhandlers⟩ := hsame
  have htally : ∀ counter, s'.tally counter = s.tally counter := by
    intro counter
    rw [tally, hjournal, tally]
  constructor
  · intro counter
    refine metrics_report counter who notices ?_
    intro counter
    rw [hmetrics, htally, hs.metrics]
  · intro counter
    rw [tally_report, hnotices, htally, hs.exact]
    simp [refusals, refusedConnections, report, hhandlers, hturned]

theorem Counted.congr (hs : s.Counted cfg) (hmetrics : s'.metrics = s.metrics)
    (hjournal : s'.journal = s.journal) (hturned : s'.turnedAway = s.turnedAway)
    (hcounted : ∀ counter, s'.system.handlers.countP (fun h => h.pc.counted cfg.relay counter) =
      s.system.handlers.countP fun h => h.pc.counted cfg.relay counter) : s'.Counted cfg where
  metrics := by
    intro counter
    rw [hmetrics, tally, hjournal]
    exact hs.metrics counter
  exact := by
    intro counter
    rw [tally, hjournal, refusals, hcounted, refusedConnections, hturned]
    exact hs.exact counter

theorem refusedConnections_askedBy (s : Service) (c : Config) (sh : Shared) (i : MuxId)
    (h : Handler) (input : Input) :
    (s.askedBy c sh i h input).refusedConnections = s.refusedConnections := by
  cases input with
  | instant now =>
      rw [askedBy]
      generalize (checkAndRecord c sh.rates h.clientIp now).1 = allowed
      cases allowed
      · simp [asked, refusedConnections, List.countP_append]
      · rfl
  | _ => rfl

theorem Counted.handled (hs : s.Counted cfg) {i : MuxId} {input : Input} {m : Moment}
    {h h' : Handler} {sh' : Shared} (hget : s.system.handlers[i]? = some h)
    (hstep : h.step cfg.relay i s.system.shared input = some (h', sh')) :
    (s.handled cfg i input h m
      { s.system with shared := sh', handlers := s.system.handlers.set i h' }).Counted cfg := by
  have htally : ∀ counter, (s.handled cfg i input h m
      { s.system with shared := sh', handlers := s.system.handlers.set i h' }).tally counter =
        s.tally counter + countsOf counter
          (h.report cfg.relay s.system.shared (s.locals i) m input) := by
    intro counter
    rw [Service.handled, tally_report]
    simp [tally]
  constructor
  · intro counter
    refine metrics_report counter _ _ ?_
    intro counter
    simp only [tally, journal_askedBy, metrics_askedBy]
    exact hs.metrics counter
  · intro counter
    have hmoved := countP_set_add (p := fun h => h.pc.counted cfg.relay counter) hget h'
    have hcounts := counted_step (l := s.locals i) (m := m) counter hstep
    have hbefore := hs.exact counter
    rw [htally, refusals, system_handled]
    have hrefused : (s.handled cfg i input h m
        { s.system with shared := sh', handlers := s.system.handlers.set i h' }).refusedConnections =
          s.refusedConnections := by
      change (Service.askedBy _ _ _ _ _ _).refusedConnections = _
      rw [refusedConnections_askedBy]
      rfl
    rw [hrefused]
    rw [refusals] at hbefore
    dsimp only
    omega

theorem countsOf_screen (pcfg : TcpPassthroughConfig) (lists : Lists) (geoip : GeoipFilter)
    (peer : SocketAddr) : countsOf counter (pcfg.screen lists geoip peer).2 = 0 := by
  rw [TcpPassthroughConfig.screen_eq]
  split
  · rfl
  · split <;> rfl

theorem Counted.answered (hs : s.Counted cfg) (rates : RateTable) (n : Nat)
    (pcfg : TcpPassthroughConfig) (peer : SocketAddr) (now : Nat) (allowed : Bool) :
    ((s.setRates rates).answered n pcfg peer now allowed).Counted cfg := by
  cases allowed with
  | true => exact hs.congr rfl rfl rfl fun _ => rfl
  | false =>
      simp only [Service.answered, Bool.false_eq_true, if_false]
      constructor
      · intro counter
        exact metrics_report counter _ _ hs.metrics
      · intro counter
        have hbefore := hs.exact counter
        rw [tally_report, refusals]
        rw [refusals] at hbefore
        change s.tally counter + _ = s.system.handlers.countP _ + _
        have hturned : ((((s.setRates rates).setLoop n pcfg .accepting).asked (.listener n)
            ⟨peer.ip.toString, now⟩ false).report (.listener n)
              (pcfg.reportLimited peer)).refusedConnections = s.refusedConnections + 1 := by
          simp [refusedConnections, report, asked, setLoop, setRates, List.countP_append]
        rw [hturned]
        by_cases hcounter : counter = .rateLimitHits
        · subst hcounter
          have hone : countsOf .rateLimitHits (pcfg.reportLimited peer) = 1 := rfl
          rw [if_pos rfl] at hbefore ⊢
          omega
        · have hzero : countsOf counter (pcfg.reportLimited peer) = 0 := by
            cases counter <;> first | rfl | exact absurd rfl hcounter
          rw [if_neg hcounter] at hbefore ⊢
          omega

theorem Counted.step (hs : s.Counted cfg) {a : Happening} (hstep : s.step cfg a = some s') :
    s'.Counted cfg := by
  cases step_cases hstep with
  | handled hget hhandler => exact hs.handled hget hhandler
  | connected =>
      refine hs.congr rfl rfl rfl fun counter => ?_
      rw [countP_concat]
      cases counter <;> rfl
  | aside haside =>
      refine hs.congr rfl rfl rfl fun counter => ?_
      rw [haside.handlers]
  | screened =>
      exact hs.report_silent ⟨rfl, rfl, rfl, rfl⟩ fun counter => countsOf_screen counter _ _ _ _
  | answered => exact hs.answered _ _ _ _ _ _
  | started => exact hs.report_silent ⟨rfl, rfl, rfl, rfl⟩ fun _ => rfl
  | finished => exact hs.report_silent ⟨rfl, rfl, rfl, rfl⟩ fun _ => rfl

end Tally

theorem counted_served {cfg : ServiceConfig} {guard : Service → Happening → Prop}
    {lists : Lists} {cfgs : List TcpPassthroughConfig} {happenings : List Happening} {s : Service}
    (hrun : Served cfg guard lists cfgs happenings s) : s.Counted cfg := by
  refine hrun.invariant ⟨?_, ?_⟩ fun t a u ht _ hstep => ht.step hstep
  · intro counter
    cases counter <;> rfl
  · intro counter
    cases counter <;> rfl

end Service

/-! ### What is told of the rate limiter -/

def Notice.tellsLimit : Notice → Bool
  | .count .rateLimitHits | .audit (.passthroughRateLimited _ _) => true
  | _ => false

namespace Service

/-- The addresses for which listener `n` asked the rate limiter in vain. -/
def limitedKeys (s : Service) (n : Nat) : List String :=
  (s.turnedAway.filter fun ask => ask.who = .listener n).map fun ask => ask.call.key

/-- An accept loop counts and reports the peers that the rate limiter turned away, each once,
and no others. -/
def TellsLimited (s : Service) : Prop :=
  ∀ (n : Nat) (pcfg : TcpPassthroughConfig) (loop : AcceptLoop),
    s.listeners[n]? = some ⟨pcfg, loop⟩ → ∃ peers : List SocketAddr,
      s.limitedKeys n = peers.map (fun peer => peer.ip.toString) ∧
      (s.reportsOf (.listener n)).filter Notice.tellsLimit = peers.flatMap pcfg.reportLimited

section Limited

variable {cfg : ServiceConfig} {s s' : Service} {n : Nat} {pcfg : TcpPassthroughConfig}
  {loop : AcceptLoop}

theorem TellsLimited.congr (hs : s.TellsLimited) (hlisteners : s'.listeners = s.listeners)
    (hkeys : ∀ n, s'.limitedKeys n = s.limitedKeys n)
    (hreports : ∀ n, s'.reportsOf (.listener n) = s.reportsOf (.listener n)) :
    s'.TellsLimited := by
  intro n pcfg loop hget
  rw [hkeys, hreports]
  exact hs n pcfg loop (hlisteners ▸ hget)

theorem TellsLimited.looped (hs : s.TellsLimited) {old : AcceptLoop}
    (hget : s.listeners[n]? = some ⟨pcfg, old⟩)
    (hlisteners : s'.listeners = s.listeners.set n ⟨pcfg, loop⟩) (peers : List SocketAddr)
    (hkeys : s'.limitedKeys n = s.limitedKeys n ++ peers.map fun peer => peer.ip.toString)
    (htold : (s'.reportsOf (.listener n)).filter Notice.tellsLimit =
      (s.reportsOf (.listener n)).filter Notice.tellsLimit ++ peers.flatMap pcfg.reportLimited)
    (hothers : ∀ m, m ≠ n → s'.limitedKeys m = s.limitedKeys m ∧
      s'.reportsOf (.listener m) = s.reportsOf (.listener m)) : s'.TellsLimited := by
  intro m pcfg' loop' hm
  rw [hlisteners] at hm
  by_cases hmn : m = n
  · subst hmn
    rw [List.getElem?_set_self (List.getElem?_eq_some_iff.mp hget).1] at hm
    obtain ⟨rfl, -⟩ := PassthroughListener.mk.inj (Option.some.inj hm)
    obtain ⟨before, hbefore, hreported⟩ := hs m _ _ hget
    refine ⟨before ++ peers, ?_, ?_⟩
    · rw [hkeys, hbefore, List.map_append]
    · rw [htold, hreported, List.flatMap_append]
  · rw [List.getElem?_set_ne (Ne.symm hmn)] at hm
    rw [(hothers m hmn).1, (hothers m hmn).2]
    exact hs m pcfg' loop' hm

theorem limitedKeys_askedBy (c : Config) (sh : Shared) (i : MuxId) (h : Handler) (input : Input)
    (n : Nat) : (s.askedBy c sh i h input).limitedKeys n = s.limitedKeys n := by
  cases input with
  | instant now =>
      rw [askedBy]
      generalize (checkAndRecord c sh.rates h.clientIp now).1 = allowed
      cases allowed
      · simp [asked, limitedKeys]
      · rfl
  | _ => rfl

theorem tellsLimit_screen (pcfg : TcpPassthroughConfig) (lists : Lists) (geoip : GeoipFilter)
    (peer : SocketAddr) : (pcfg.screen lists geoip peer).2.filter Notice.tellsLimit = [] := by
  rw [TcpPassthroughConfig.screen_eq]
  split
  · rfl
  · split <;> rfl

theorem TellsLimited.answered (hs : s.TellsLimited) {peer : SocketAddr}
    (hget : s.listeners[n]? = some ⟨pcfg, .limiting peer⟩) (rates : RateTable) (now : Nat)
    (allowed : Bool) : ((s.setRates rates).answered n pcfg peer now allowed).TellsLimited := by
  have hothers : ∀ m, m ≠ n →
      ((s.setRates rates).answered n pcfg peer now allowed).limitedKeys m = s.limitedKeys m ∧
        ((s.setRates rates).answered n pcfg peer now allowed).reportsOf (.listener m) =
          s.reportsOf (.listener m) := by
    intro m hm
    refine ⟨?_, reportsOf_answered _ _ _ _ _ _ (by simpa using hm)⟩
    cases allowed with
    | true => rfl
    | false =>
        simp [Service.answered, limitedKeys, asked, report, setLoop, setRates, Ne.symm hm]
  cases allowed with
  | true =>
      refine hs.looped hget rfl [] ?_ ?_ hothers
      · exact (List.append_nil _).symm
      · exact (List.append_nil _).symm
  | false =>
      refine hs.looped hget rfl [peer] ?_ ?_ hothers
      · simp [Service.answered, limitedKeys, asked, report, setLoop, setRates]
      · have hreports : ((s.setRates rates).answered n pcfg peer now false).reportsOf
            (.listener n) = s.reportsOf (.listener n) ++ pcfg.reportLimited peer :=
          reportsOf_report_self ..
        rw [hreports, List.filter_append, List.flatMap_singleton]
        rfl

theorem TellsLimited.step (hs : s.TellsLimited) {a : Happening} (hstep : s.step cfg a = some s') :
    s'.TellsLimited := by
  cases step_cases hstep with
  | @handled i input m h h' sh' =>
      refine hs.congr (listeners_handled ..) (fun n => ?_) fun n => ?_
      · exact limitedKeys_askedBy _ _ _ _ _ n
      · exact reportsOf_handled_ne _ _ _ _ _ _ _ (by simp)
  | connected => exact hs.congr rfl (fun _ => rfl) fun _ => rfl
  | aside => exact hs.congr rfl (fun _ => rfl) fun _ => rfl
  | @screened n peer pcfg hget =>
      refine hs.looped hget rfl [] ?_ ?_ fun m hm => ⟨rfl, ?_⟩
      · exact (List.append_nil _).symm
      · rw [reportsOf_report_self, List.filter_append, tellsLimit_screen]
        rfl
      · exact reportsOf_report_ne _ _ _ _ (by simpa using hm)
  | answered hget => exact hs.answered hget _ _ _
  | started =>
      exact hs.congr rfl (fun _ => rfl) fun n => reportsOf_report_ne _ _ _ _ (by simp)
  | finished =>
      exact hs.congr rfl (fun _ => rfl) fun n => reportsOf_report_ne _ _ _ _ (by simp)

theorem tellsLimited_served {guard : Service → Happening → Prop} {lists : Lists}
    {cfgs : List TcpPassthroughConfig} {happenings : List Happening}
    (hrun : Served cfg guard lists cfgs happenings s) : s.TellsLimited := by
  refine hrun.invariant ?_ fun t a u ht _ hstep => ht.step hstep
  intro n pcfg loop _
  exact ⟨[], rfl, rfl⟩

end Limited

end Service

/-! ### The counters -/

/-- How the replies begin that a counter stands for. -/
def Counter.beginnings : Counter → List (List Char)
  | .authFailures => [['a', 'u'], ['i', 'n']]
  | .rateLimitHits => [['t', 'o']]
  | .tunnelPerIpRejections => [['t', 'u']]
  | .tunnelCapRejections => [['r', 'e']]
  | .subdomainInvalid => [['s', 'u']]
  | .handshakes => []

theorem gate_mem_beginnings {cfg : Config} {reply : ControlFrame} {counter : Counter}
    (hcounter : counter ≠ .handshakes) (h : countedRefusal cfg reply counter = true) :
    (gate reply).2 ∈ counter.beginnings := by
  cases counter with
  | authFailures =>
      simp only [countedRefusal, isAuthRefusal, Bool.or_eq_true, beq_iff_eq] at h
      rcases h with rfl | rfl <;> decide
  | rateLimitHits => simp [beq_iff_eq.mp h, gate_rateRefusal, Counter.beginnings]
  | tunnelPerIpRejections => simp [beq_iff_eq.mp h, gate_perIpRefusal, Counter.beginnings]
  | tunnelCapRejections => simp [beq_iff_eq.mp h, gate_capacityRefusal, Counter.beginnings]
  | subdomainInvalid => simp [(gate_of_isNamingRefusal h).2, Counter.beginnings]
  | handshakes => exact absurd rfl hcounter

theorem counted_once {cfg : Config} {pc : Pc} {counter counter' : Counter}
    (hcounter : counter ≠ .handshakes) (hcounter' : counter' ≠ .handshakes)
    (h : pc.counted cfg counter = true) (h' : pc.counted cfg counter' = true) :
    counter = counter' := by
  cases hrefused : pc.refusedWith with
  | some reply =>
      simp only [Pc.counted, hrefused] at h h'
      have hgate := gate_mem_beginnings hcounter h
      have hgate' := gate_mem_beginnings hcounter' h'
      cases counter <;> cases counter' <;> simp_all [Counter.beginnings]
  | none =>
      simp only [Pc.counted, hrefused] at h h'
      cases counter <;> cases counter' <;> simp_all

/-- In every run each counter has the number of calls, and for the rate limiter also of
passthrough connections, that were turned down at its gate, and no call is counted at two. The
gate of the auth failures is the deny list as well as the token. The connections are those of
which the audit log has that they were limited. -/
theorem metrics_count_refusals (cfg : ServiceConfig) (lists : Lists)
    (cfgs : List TcpPassthroughConfig) (happenings : List Happening) (s : Service)
    (hrun : FreeRun (Service.step cfg) (Service.initial lists cfgs) happenings s) :
    (∀ counter, s.metrics.get counter = UInt64.ofNat (s.refusals cfg counter)) ∧
      (∀ h ∈ s.system.handlers, ∀ counter counter', counter ≠ .handshakes →
        counter' ≠ .handshakes → h.pc.counted cfg.relay counter = true →
        h.pc.counted cfg.relay counter' = true → counter = counter') ∧
      s.TellsLimited := by
  have hs := Service.counted_served hrun
  refine ⟨?_, ?_, Service.tellsLimited_served hrun⟩
  · intro counter
    rw [hs.metrics, hs.exact]
  · intro h _ counter counter' hcounter hcounter' hcounted hcounted'
    exact counted_once hcounter hcounter' hcounted hcounted'

def tokenLists : Lists := ⟨some ["secret"], none, none⟩

def strictService : ServiceConfig where
  relay := { Config.unlimited "example.com" with rateLimit := 1 }
  tunnelKeepalive := 0
  geoip := ⟨none, id, []⟩

/-- Session `i` registers with `token`, up to the rate limiter. -/
def knocking (i : MuxId) (token : Option String) : List Label :=
  .connect documentationIp ::
    [.proceed,
      .received (.stream (.ofList (frameBytes
        (.register protocolVersion token (.tcp 4000)))))].map (.handler i)

def sshForward : TcpPassthroughConfig := ⟨2222, "10.0.0.5", 22⟩

/-- A wrong token, a call that uses the quota up, one that comes too late, and a passthrough
connection that comes too late as well. -/
def refusedThrice : List Happening :=
  (knocking 0 (some "guess") ++ [Label.handler 0 (.wrote none)] ++
    knocking 1 (some "secret") ++ [Label.handler 1 (.instant 0)] ++
    knocking 2 (some "secret") ++ [Label.handler 2 (.instant 5)]).map (.relay · ⟨0, 7, 0, 0⟩) ++
    [.accepted 0 ⟨documentationIp, 40000, 0⟩, .limited 0 9]

theorem metrics_count_refusedThrice :
    ∃ s, FreeRun (Service.step strictService) (Service.initial tokenLists [sshForward])
        refusedThrice s ∧
      s.metrics = ⟨14, 2, 1, 2, 0, 0, 0⟩ ∧
      ∀ counter, s.metrics.get counter = UInt64.ofNat (s.refusals strictService counter) := by
  have hexec : (exec (Service.step strictService) (Service.initial tokenLists [sshForward])
      refusedThrice).map Service.metrics = some ⟨14, 2, 1, 2, 0, 0, 0⟩ := by
    decide +kernel
  obtain ⟨s, hrun, hmetrics⟩ := exists_freeRun hexec
  exact ⟨s, hrun, hmetrics, (metrics_count_refusals _ _ _ _ _ hrun).1⟩

end Seamless.Relay
