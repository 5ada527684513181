import Seamless.Relay.CidrList
import Seamless.Relay.FileConfig
import Seamless.Relay.PublicUrl

/-!
The naming policy over runs of the relay: a name that is registered should be well
formed, and neither reserved nor blocked. Names that clients ask for are checked, names
that the relay draws are not.
-/

namespace Seamless.Relay

open Seamless.Common
open Seamless.Library
open Seamless.Library.Text
open Seamless.Library.TransitionSystem

/-- The reserved list as `main` parses it. -/
def reservedList (m : CaseMap) (reservedSubdomains : Option String) : List String :=
  (((splitOn ',' (reservedSubdomains.getD "").toList).map fun s => m.lower (trim s)).filter
    fun s => !s.isEmpty).map String.ofList

/-- `cfg` has the naming settings that `main` takes from `args`. -/
structure Config.NamedBy (cfg : Config) (args : Args) : Prop where
  reserved : cfg.reservedSubdomains = reservedList cfg.caseMap args.reservedSubdomains
  length : cfg.subdomainLength = max args.subdomainLength 6

structure Permitted (cfg : Config) (lists : Lists) (name : String) : Prop where
  valid : validateSubdomain name = .ok ()
  unreserved : isReserved cfg name = false
  unblocked : isBlocked cfg lists name = false

section Events

variable (cfg : Config) (i : MuxId) (name : String) (s : System)

/-- Call `i` settles on a name, and the name is permitted. -/
inductive SettlesOn : Label → Prop
  | mk {input : Input} {h h' : Handler} {sh' : Shared} {entry : TunnelEntry}
      (hget : s.handlers[i]? = some h) (hstep : h.step cfg i s.shared input = some (h', sh'))
      (hpending : h'.pc.pending = some entry) (hname : entry.subdomain = name)
      (hpermitted : Permitted cfg s.shared.lists name) : SettlesOn (.handler i input)

/-- Call `i` puts its entry into the tunnel map, and the name is permitted. -/
inductive RegistersAs : Label → Prop
  | mk {input : Input} {s' : System} {entry : TunnelEntry}
      (hstep : s.step cfg (.handler i input) = some s')
      (hnew : s.shared.tunnels.lookup name ≠ some entry)
      (hentry : s'.shared.tunnels.lookup name = some entry)
      (hpermitted : Permitted cfg s.shared.lists name) : RegistersAs (.handler i input)

end Events

/-- A name that the relay draws is short enough for a subdomain, not reserved, and not on
the blocklist in force. -/
def Label.drawsPermitted (cfg : Config) (s : System) : Label → Bool
  | .handler i (.named random _ _) =>
      match (s.handlers[i]?).map Handler.pc with
      | some (.serve (.http none)) =>
          cfg.subdomainLength ≤ 63 && !isReserved cfg random && !isBlocked cfg s.shared.lists random
      | _ => true
  | _ => true

/-- A reload of the blocklist does not overtake a call that has settled on a name. -/
def Label.blocksNoPending (cfg : Config) (s : System) : Label → Bool
  | .reloadBlocklist entries =>
      s.handlers.all fun h => h.pc.pending.all fun entry =>
        !entries.contains (cfg.caseMap.lowerString entry.subdomain)
  | _ => true

section Naming

variable {cfg : Config} {s s' : System} {i : MuxId} {h h' : Handler} {sh sh' : Shared}
  {input : Input} {label : Label} {entry : TunnelEntry}

theorem checkRequested_permitted {lists : Lists} {requested : String}
    (h : checkRequested cfg lists requested = .ok ()) : Permitted cfg lists requested := by
  have hvalid := checkRequested_valid h
  unfold checkRequested at h
  rw [hvalid] at h
  dsimp only at h
  split at h
  · cases h
  · rename_i hreserved
    split at h
    · cases h
    · split at h
      · cases h
      · rename_i hblocked
        exact ⟨hvalid, by simpa using hreserved, by simpa using hblocked⟩

theorem utf8ByteSize_of_forall {s : String} (h : ∀ c ∈ s.toList, c.utf8Size = 1) :
    s.utf8ByteSize = s.toList.length := by
  rw [← String.utf8Len_toList]
  generalize s.toList = cs at h ⊢
  induction cs with
  | nil => rfl
  | cons c cs ih =>
      rw [String.utf8Len_cons, ih fun d hd => h d (by simp [hd]), h c (by simp), List.length_cons]

theorem validateSubdomain_of_random {length : Nat} {random : String}
    (h : isRandomSubdomain length random = true) (hpos : 0 < length) (hle : length ≤ 63) :
    validateSubdomain random = .ok () := by
  simp only [isRandomSubdomain, Bool.and_eq_true, beq_iff_eq, List.all_eq_true] at h
  obtain ⟨hlength, hchars⟩ := h
  have hall : randomChars.all (fun c => c.isAlphanum && c.utf8Size == 1 && c != '-') = true := by
    decide +kernel
  have hchar : ∀ c ∈ random.toList, c.isAlphanum = true ∧ c.utf8Size = 1 ∧ c ≠ '-' := by
    intro c hc
    have hok := List.all_eq_true.mp hall c (by simpa using hchars c hc)
    simpa [and_assoc] using hok
  have hsize : random.utf8ByteSize = length := by
    rw [utf8ByteSize_of_forall fun c hc => (hchar c hc).2.1, hlength]
  have hempty : random.isEmpty = false := by
    rw [String.isEmpty_eq_utf8ByteSize_beq_zero, hsize]
    simp [Nat.pos_iff_ne_zero.mp hpos]
  have hdash : ∀ c, random.toList.head? = some c ∨ random.toList.getLast? = some c → c ≠ '-' := by
    rintro c (hc | hc)
    · exact (hchar c (List.mem_of_mem_head? hc)).2.2
    · exact (hchar c (List.mem_of_getLast? hc)).2.2
  unfold validateSubdomain
  rw [hempty, hsize, if_neg (by simpa using hle), if_neg, if_neg]
  · simp only [Bool.or_eq_true, beq_iff_eq]
    rintro (hhead | hlast)
    · exact hdash '-' (.inl hhead) rfl
    · exact hdash '-' (.inr hlast) rfl
  · simp only [Bool.not_eq_true', Bool.not_eq_false, List.all_eq_true, Bool.or_eq_true]
    exact fun c hc => .inl (hchar c hc).1

theorem Handler.step_settles (hlength : 0 < cfg.subdomainLength)
    (hget : s.handlers[i]? = some h) (hstep : h.step cfg i s.shared input = some (h', sh'))
    (hpending : h'.pc.pending = some entry)
    (hguard : (Label.handler i input).drawsPermitted cfg s = true) :
    entry.mux = i ∧ Permitted cfg s.shared.lists entry.subdomain ∧ sh' = s.shared := by
  obtain ⟨sub, random, unixNow, now, rfl, hpc, hnaming, rfl⟩ := Handler.step_named hstep hpending
  unfold afterNaming at hnaming
  cases sub with
  | some requested =>
      dsimp only at hnaming
      split at hnaming
      · rw [← Option.some.inj hnaming] at hpending
        cases hpending
      · rename_i hcheck
        rw [← Option.some.inj hnaming] at hpending
        cases hpending
        exact ⟨rfl, checkRequested_permitted hcheck, rfl⟩
  | none =>
      dsimp only at hnaming
      split at hnaming
      · rename_i hrandom
        rw [← Option.some.inj hnaming] at hpending
        cases hpending
        simp only [Label.drawsPermitted, hget, Option.map_some, hpc, Bool.and_eq_true,
          decide_eq_true_eq, Bool.not_eq_true'] at hguard
        obtain ⟨⟨hle, hreserved⟩, hblocked⟩ := hguard
        exact ⟨rfl, ⟨validateSubdomain_of_random hrandom hlength hle, hreserved, hblocked⟩, rfl⟩
      · cases hnaming

theorem HandlerStep.lists (hstep : HandlerStep cfg i sh h input h' sh') :
    sh'.lists = sh.lists := by
  cases hstep with
  | @announceFailed _ endpoint => cases endpoint <;> rfl
  | _ => rfl

theorem Shared.lists_foldl_evict (entries : List (Sigma fun _ : String => TunnelEntry))
    (sh : Shared) :
    (entries.foldl (fun sh e => sh.evict e.1 e.2) sh).lists = sh.lists := by
  induction entries generalizing sh with
  | nil => rfl
  | cons e entries ih => exact ih _

theorem System.step_blocklist (hstep : s.step cfg label = some s') :
    s'.shared.lists.blocklist = s.shared.lists.blocklist ∨
      ∃ entries, label = .reloadBlocklist entries ∧
        s'.shared.lists.blocklist = s.shared.lists.blocklist.map fun _ => entries := by
  cases label with
  | reloadBlocklist entries =>
      cases hstep
      exact .inr ⟨entries, rfl, rfl⟩
  | handler i input =>
      obtain ⟨h, h', sh', -, hhandler, rfl⟩ := System.handler_cases hstep
      exact .inl (by rw [hhandler.lists])
  | sweep now =>
      obtain rfl := System.sweep_cases hstep
      exact .inl (congrArg Lists.blocklist (Shared.lists_foldl_evict _ _))
  | connect | reloadAuth | reloadDenylist | removeCustomDomain =>
      cases hstep
      exact .inl rfl
  | shutdown =>
      obtain rfl := System.shutdown_cases hstep
      exact .inl rfl
  | disconnectTunnel | setCustomDomain =>
      simp only [System.step] at hstep
      split at hstep
      · cases hstep
      · split at hstep <;> cases hstep <;> exact .inl rfl
  | bulkDisconnect | lookupDomain =>
      simp only [System.step] at hstep
      split at hstep <;> cases hstep <;> exact .inl rfl
  | adminStep n =>
      change s.adminStep n = some s' at hstep
      unfold System.adminStep at hstep
      split at hstep <;> first | cases hstep; exact .inl rfl | cases hstep
  | routeDomain n =>
      obtain ⟨lookups, routed, rfl⟩ := routeDomain_frame (System.routeDomain_cases hstep)
      exact .inl rfl

end Naming

section History

variable {cfg : Config} {guard : System → Label → Prop} {lists : Lists} {labels : List Label}
  {s : System} {i : MuxId} {h : Handler} {entry : TunnelEntry} {k : String} {e : TunnelEntry}

theorem settled_of_pending (hlength : 0 < cfg.subdomainLength)
    (hguard : ∀ t a, guard t a → a.drawsPermitted cfg t = true)
    (hrun : Reached cfg guard lists labels s) (hget : s.handlers[i]? = some h)
    (hpending : h.pc.pending = some entry) :
    entry.mux = i ∧ validateSubdomain entry.subdomain = .ok () ∧
      isReserved cfg entry.subdomain = false ∧
      Occurred (System.step cfg) (SettlesOn cfg i entry.subdomain) (System.initial lists)
        labels := by
  induction hrun generalizing h with
  | nil => simp [System.initial] at hget
  | @snoc labels t u a hinit hok hlast ih =>
      cases System.handler_origin hlast hget with
      | same _ hold =>
          obtain ⟨hmux, hvalid, hreserved, hsettled⟩ := ih hold hpending
          exact ⟨hmux, hvalid, hreserved, hsettled.snoc a⟩
      | fresh _ hg =>
          subst hg
          cases hpending
      | own hlabel hold hown =>
          subst hlabel
          obtain ⟨hmux, hpermitted, -⟩ :=
            Handler.step_settles hlength hold hown hpending (hguard _ _ hok)
          exact ⟨hmux, hpermitted.valid, hpermitted.unreserved,
            hinit.occurred_last (.mk hold hown hpending rfl hpermitted)⟩

theorem unblocked_of_pending (hlength : 0 < cfg.subdomainLength)
    (hguard : ∀ t a, guard t a → a.drawsPermitted cfg t = true ∧ a.blocksNoPending cfg t = true)
    (hrun : Reached cfg guard lists labels s) (hget : s.handlers[i]? = some h)
    (hpending : h.pc.pending = some entry) :
    isBlocked cfg s.shared.lists entry.subdomain = false := by
  induction hrun generalizing h with
  | nil => simp [System.initial] at hget
  | @snoc labels t u a hinit hok hlast ih =>
      obtain ⟨hdraws, hblocks⟩ := hguard t a hok
      cases System.handler_origin hlast hget with
      | same _ hold =>
          have hbefore := ih hold hpending
          rcases System.step_blocklist hlast with hsame | ⟨entries, rfl, hnew⟩
          · rwa [isBlocked, hsame]
          · rw [isBlocked, hnew]
            cases hlist : t.shared.lists.blocklist with
            | none => rfl
            | some old =>
                simp only [Label.blocksNoPending, List.all_eq_true] at hblocks
                have hown := hblocks h (List.mem_of_getElem? hold)
                rw [hpending, Option.all_some] at hown
                simpa using hown
      | fresh _ hg =>
          subst hg
          cases hpending
      | own hlabel hold hown =>
          subst hlabel
          obtain ⟨-, hpermitted, hshared⟩ :=
            Handler.step_settles hlength hold hown hpending hdraws
          rw [hshared]
          exact hpermitted.unblocked

theorem insertion_of_lookup (hrun : Reached cfg guard lists labels s)
    (hk : s.shared.tunnels.lookup k = some e) (hhttp : ∀ port, k ≠ tcpKey port) :
    ∃ before i input after t u h, labels = before ++ .handler i input :: after ∧
      Reached cfg guard lists before t ∧ t.step cfg (.handler i input) = some u ∧
      t.handlers[i]? = some h ∧ h.pc.pending = some e ∧ e.subdomain = k ∧
      t.shared.tunnels.lookup k ≠ some e ∧ u.shared.tunnels.lookup k = some e := by
  induction hrun with
  | nil => simp [System.initial, Shared.initial] at hk
  | @snoc labels t u a hinit hok hlast ih =>
      by_cases hold : t.shared.tunnels.lookup k = some e
      · obtain ⟨before, i, input, after, t', u', h, rfl, hrest⟩ := ih hold
        exact ⟨before, i, input, after ++ [a], t', u', h, by simp, hrest⟩
      · cases System.step_cases hlast with
        | connected client => exact absurd hk hold
        | evicted _ hevict => exact absurd (hevict.lookup hk) hold
        | quiet hquiet => exact absurd (hquiet.tunnels ▸ hk) hold
        | @handled i input h h' sh' hget hhandler =>
            rcases hhandler.lookup_cases hk with hsame | ⟨hpending, hname⟩ | ⟨port, rfl, -⟩
            · exact absurd hsame hold
            · exact ⟨labels, i, input, [], t, _, h, rfl, hinit, hlast, hget, hpending, hname, hold,
                hk⟩
            · exact absurd rfl (hhttp port)

end History

/-- While the relay draws no name against the policy, every HTTP tunnel has a name that
was permitted when its call settled on it, and, when no reload of the blocklist overtakes a
call, still was when it was registered. -/
theorem naming_policy {args : Args} {cfg : Config} (hargs : cfg.NamedBy args) {lists : Lists}
    {labels : List Label} {s : System}
    (hrun : Reached cfg (fun t a => a.drawsPermitted cfg t = true) lists labels s)
    {k : String} {e : TunnelEntry} (hk : s.shared.tunnels.lookup k = some e)
    (hhttp : ∀ port, k ≠ tcpKey port) :
    validateSubdomain k = .ok () ∧ isReserved cfg k = false ∧
    Occurred (System.step cfg) (SettlesOn cfg e.mux k) (System.initial lists) labels ∧
    (Reached cfg (fun t a => a.drawsPermitted cfg t = true ∧ a.blocksNoPending cfg t = true) lists
        labels s →
      Occurred (System.step cfg) (RegistersAs cfg e.mux k) (System.initial lists) labels) := by
  have hlength : 0 < cfg.subdomainLength := by
    rw [hargs.length]
    omega
  obtain ⟨before, i, input, after, t, u, h, rfl, hbefore, -, hget, hpending, rfl, -⟩ :=
    insertion_of_lookup hrun hk hhttp
  obtain ⟨rfl, hvalid, hreserved, hsettled⟩ :=
    settled_of_pending hlength (fun _ _ hok => hok) hbefore hget hpending
  refine ⟨hvalid, hreserved, hsettled.append _, ?_⟩
  intro hboth
  obtain ⟨before, i, input, after, t, u, h, hsplit, hbefore, hstep, hget, hpending, -, hnew,
      hinserted⟩ :=
    insertion_of_lookup hboth hk hhttp
  have hunblocked := unblocked_of_pending hlength (fun _ _ hok => hok) hbefore hget hpending
  obtain ⟨hmux, -⟩ := settled_of_pending hlength (fun _ _ hok => hok.1) hbefore hget hpending
  subst hmux
  exact ⟨before, _, after, t, hsplit, hbefore.exec,
    .mk hstep hnew hinserted ⟨hvalid, hreserved, hunblocked⟩⟩

/-- A relay on which `name` is reserved. -/
def reserving (name : String) : Config :=
  { Config.unlimited "relay.test" with reservedSubdomains := [name] }

def reservingArgs (name : String) : Args :=
  { Args.defaults with reservedSubdomains := some name }

/-- A client asks for any name, the relay draws one and registers it. -/
def drawn (random : String) : List Label :=
  .connect documentationIp :: admission 0 (.http none) ++
    ([.named random 0 0, .proceed] : List Input).map (.handler 0)

/-- The name that is drawn is reserved. -/
theorem drawn_name_reserved :
    (reserving "abcdefgh").NamedBy (reservingArgs "abcdefgh") ∧
    isReserved (reserving "abcdefgh") "abcdefgh" = true ∧ (∀ port, "abcdefgh" ≠ tcpKey port) ∧
    ∃ s, Reached (reserving "abcdefgh") (fun _ _ => True) .disabled (drawn "abcdefgh") s ∧
      (s.shared.tunnels.lookup "abcdefgh").isSome = true := by
  have hexec : (exec (System.step (reserving "abcdefgh")) (System.initial .disabled)
      (drawn "abcdefgh")).map (fun s => (s.shared.tunnels.lookup "abcdefgh").isSome) =
        some true := by
    decide +kernel
  obtain ⟨s, hrun, hlive⟩ := exists_freeRun hexec
  refine ⟨⟨by decide +kernel, by decide⟩, by decide +kernel, ?_, s, hrun, hlive⟩
  exact ne_tcpKey (by decide)

/-- Another name is drawn, and the policy holds of it. -/
theorem naming_policy_drawn :
    ∃ s, Reached (reserving "admin")
        (fun t a => a.drawsPermitted (reserving "admin") t = true) .disabled (drawn "abcdefgh") s ∧
      validateSubdomain "abcdefgh" = .ok () ∧
      isReserved (reserving "admin") "abcdefgh" = false := by
  have hexec : (execGuarded (System.step (reserving "admin"))
      (fun t a => a.drawsPermitted (reserving "admin") t = true) (System.initial .disabled)
      (drawn "abcdefgh")).map (fun s => (s.shared.tunnels.lookup "abcdefgh").isSome) =
        some true := by
    decide +kernel
  obtain ⟨s, hrun, hlive⟩ := exists_run hexec
  obtain ⟨e, he⟩ := Option.isSome_iff_exists.mp hlive
  have hargs : (reserving "admin").NamedBy (reservingArgs "admin") :=
    ⟨by decide +kernel, by decide⟩
  obtain ⟨hvalid, hreserved, -⟩ := naming_policy hargs hrun he (ne_tcpKey (by decide))
  exact ⟨s, hrun, hvalid, hreserved⟩

end Seamless.Relay
