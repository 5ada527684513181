import Seamless.Library.TransitionSystem
import Seamless.Relay.Transitions

/-!
The relay as a whole: any number of `handle_client` calls, the expiry and signal
tasks, and the admin requests that touch the registry, interleaved at their lock
sections.
-/

namespace Seamless.Relay

open Seamless.Common
open Seamless.Library
open Seamless.Library.NetAddr
open Seamless.Library.ByteStream
open Seamless.Library.TransitionSystem
open Seamless.Library.Text

/-- An admin request between two of its lock sections. -/
inductive AdminTask where
  -- Sessions still to be sent their disconnect signal.
  | disconnecting (muxes : List MuxId)
  -- `set_custom_domain` after its checks, before its write.
  | bindingDomain (domain key : String)
  deriving Repr, DecidableEq

/-- A public request that has found its host in the custom-domain map and has
not yet looked up the tunnel. `holder` is history, copied from the map. -/
structure Lookup where
  domain : String
  key : String
  holder : Option MuxId
  deriving Repr, DecidableEq

/-- History of a request routed through a custom domain: the session that the
domain was bound to, and the one the request went to. -/
structure Routed where
  domain : String
  holder : Option MuxId
  target : MuxId
  deriving Repr, DecidableEq

/-- The relay and everything in progress. Handler `i` serves session `i`. -/
structure System where
  shared : Shared
  handlers : List Handler
  admins : List AdminTask
  lookups : List Lookup
  routed : List Routed

def System.initial (lists : Lists) : System := ⟨.initial lists, [], [], [], []⟩

inductive Label where
  | connect (client : IpAddr)
  | handler (i : MuxId) (input : Input)
  | sweep (now : Int)
  | shutdown
  | reloadAuth (tokens : List String)
  | reloadBlocklist (entries : List String)
  | reloadDenylist (entries : List Cidr)
  | disconnectTunnel (id : String)
  | bulkDisconnect (clientIp : String)
  | setCustomDomain (tunnelId domain : String)
  | removeCustomDomain (tunnelId : String)
  -- The pending admin request in position `n` goes on.
  | adminStep (n : Nat)
  -- A public request looks its host up in the custom-domain map.
  | lookupDomain (host : String)
  -- The pending lookup in position `n` goes on to the tunnel map.
  | routeDomain (n : Nat)

/-- The checks of `set_custom_domain`, up to the write. -/
def domainAccepted (cfg : Config) (sh : Shared) (tunnelId raw : String) : Option String :=
  let domain := cfg.caseMap.lowerString (String.ofList (trim raw.toList))
  if domain.isEmpty || !containsChar '.' domain.toList then none
  else if (sh.tunnels.lookup tunnelId).isNone then none
  else if !cfg.allowCustomDomains && !cfg.customDomainAllowlist.contains domain then none
  else some domain

namespace System

def adminStep (s : System) (n : Nat) : Option System :=
  match s.admins[n]? with
  | some (.disconnecting (mux :: muxes)) =>
      some { s with
        shared := s.shared.signal mux
        admins := s.admins.set n (.disconnecting muxes) }
  | some (.disconnecting []) => some { s with admins := s.admins.eraseIdx n }
  | some (.bindingDomain domain key) =>
      some { s with
        shared := { s.shared with
          customDomains := s.shared.customDomains.insert domain ⟨key, s.shared.holder key⟩ }
        admins := s.admins.eraseIdx n }
  | none => none

def routeDomain (s : System) (n : Nat) : Option System :=
  match s.lookups[n]? with
  | some l =>
      let s := { s with lookups := s.lookups.eraseIdx n }
      match s.shared.tunnels.lookup l.key with
      | some entry => some { s with routed := ⟨l.domain, l.holder, entry.mux⟩ :: s.routed }
      | none => some s
  | none => none

/-- One step of the relay. `none` when the step is not enabled. -/
def step (cfg : Config) (s : System) : Label → Option System
  | .connect client => some { s with handlers := s.handlers ++ [.accepted client] }
  | .handler i input =>
      match s.handlers[i]? with
      | some h =>
          (h.step cfg i s.shared input).map fun next =>
            { s with shared := next.2, handlers := s.handlers.set i next.1 }
      | none => none
  | .sweep now =>
      if cfg.tunnelMaxAge = 0 ∨ s.shared.lock.isSome then none
      else some { s with shared := s.shared.sweep cfg now }
  | .shutdown =>
      if s.shared.lock.isSome then none else some { s with shared := s.shared.shutdown }
  | .reloadAuth tokens =>
      some { s with shared := { s.shared with
        lists := { s.shared.lists with auth := s.shared.lists.auth.map fun _ => tokens } } }
  | .reloadBlocklist entries =>
      some { s with shared := { s.shared with
        lists := { s.shared.lists with
          blocklist := s.shared.lists.blocklist.map fun _ => entries } } }
  | .reloadDenylist entries =>
      some { s with shared := { s.shared with
        lists := { s.shared.lists with
          denylist := s.shared.lists.denylist.map fun _ => entries } } }
  | .disconnectTunnel id =>
      if s.shared.lock.isSome then none
      else
        match s.shared.holder id with
        | some mux => some { s with admins := .disconnecting [mux] :: s.admins }
        | none => some s
  | .bulkDisconnect clientIp =>
      if s.shared.lock.isSome then none
      else
        some { s with admins := .disconnecting (s.shared.sessionsFrom clientIp) :: s.admins }
  | .setCustomDomain tunnelId domain =>
      if s.shared.lock.isSome then none
      else
        match domainAccepted cfg s.shared tunnelId domain with
        | some domain => some { s with admins := .bindingDomain domain tunnelId :: s.admins }
        | none => some s
  | .removeCustomDomain tunnelId =>
      some { s with shared := { s.shared with
        customDomains := KeyedTable.filter (fun _ b => b.key != tunnelId)
          s.shared.customDomains } }
  | .adminStep n => s.adminStep n
  | .lookupDomain host =>
      match s.shared.customDomains.lookup host with
      | some b => some { s with lookups := ⟨host, b.key, b.holder⟩ :: s.lookups }
      | none => some s
  | .routeDomain n => if s.shared.lock.isSome then none else s.routeDomain n

end System

def Label.Evicting : Label → Prop
  | .sweep _ | .shutdown => True
  | _ => False

/-- The labels that touch neither the registry nor the custom domains nor a
request in flight: reloads of the lists, and the first halves of admin requests. -/
def Label.Aside : Label → Prop
  | .reloadAuth _ | .reloadBlocklist _ | .reloadDenylist _ | .disconnectTunnel _
  | .bulkDisconnect _ | .setCustomDomain _ _ => True
  | _ => False

structure Quiet (s s' : System) : Prop where
  handlers : s'.handlers = s.handlers
  tunnels : s'.shared.tunnels = s.shared.tunnels
  tcpPorts : s'.shared.tcpPorts = s.shared.tcpPorts
  listeners : s'.shared.listeners = s.shared.listeners
  swept : s'.shared.swept = s.shared.swept
  lock : s'.shared.lock = s.shared.lock

/-- Everything a step of the relay can do to the registry. -/
inductive SystemStep (cfg : Config) (s : System) : Label → System → Prop
  | connected (client : IpAddr) :
      SystemStep cfg s (.connect client)
        { s with handlers := s.handlers ++ [.accepted client] }
  | handled {i : MuxId} {input : Input} {h h' : Handler} {sh' : Shared}
      (hget : s.handlers[i]? = some h)
      (hstep : HandlerStep cfg i s.shared h input h' sh') :
      SystemStep cfg s (.handler i input)
        { s with shared := sh', handlers := s.handlers.set i h' }
  | evicted {label : Label} {sh' : Shared} (hlabel : label.Evicting)
      (hevict : Shared.Evicts s.shared sh') :
      SystemStep cfg s label { s with shared := sh' }
  | quiet {label : Label} {s' : System} (hquiet : Quiet s s') : SystemStep cfg s label s'

theorem quiet_adminStep {s s' : System} {n : Nat} (h : s.adminStep n = some s') :
    Quiet s s' := by
  unfold System.adminStep at h
  split at h <;> first | cases h; exact ⟨rfl, rfl, rfl, rfl, rfl, rfl⟩ | cases h

theorem System.routeDomain_frame {s s' : System} {n : Nat} (h : s.routeDomain n = some s') :
    ∃ lookups routed, s' = { s with lookups := lookups, routed := routed } := by
  unfold System.routeDomain at h
  split at h
  · dsimp only at h
    split at h <;> cases h <;> exact ⟨_, _, rfl⟩
  · cases h

theorem System.handler_step {cfg : Config} {s s' : System} {i : MuxId} {input : Input}
    (hstep : s.step cfg (.handler i input) = some s') :
    ∃ h h' sh', s.handlers[i]? = some h ∧ h.step cfg i s.shared input = some (h', sh') ∧
      s' = { s with shared := sh', handlers := s.handlers.set i h' } := by
  simp only [System.step] at hstep
  split at hstep
  · rename_i h hget
    obtain ⟨⟨h', sh'⟩, hhandler, rfl⟩ := Option.map_eq_some_iff.mp hstep
    exact ⟨h, h', sh', hget, hhandler, rfl⟩
  · cases hstep

theorem System.handler_cases {cfg : Config} {s s' : System} {i : MuxId} {input : Input}
    (hstep : s.step cfg (.handler i input) = some s') :
    ∃ h h' sh', s.handlers[i]? = some h ∧ HandlerStep cfg i s.shared h input h' sh' ∧
      s' = { s with shared := sh', handlers := s.handlers.set i h' } := by
  obtain ⟨h, h', sh', hget, hhandler, rfl⟩ := System.handler_step hstep
  exact ⟨h, h', sh', hget, Handler.step_cases hhandler, rfl⟩

theorem System.step_of_aside {cfg : Config} {s s' : System} {label : Label}
    (hlabel : label.Aside) (hstep : s.step cfg label = some s') :
    ∃ lists admins,
      s' = { s with shared := { s.shared with lists := lists }, admins := admins } := by
  cases label with
  | reloadAuth tokens =>
      cases hstep
      exact ⟨_, _, rfl⟩
  | reloadBlocklist entries =>
      cases hstep
      exact ⟨_, _, rfl⟩
  | reloadDenylist entries =>
      cases hstep
      exact ⟨_, _, rfl⟩
  | disconnectTunnel id =>
      simp only [System.step] at hstep
      split at hstep
      · cases hstep
      · split at hstep <;> cases hstep <;> exact ⟨_, _, rfl⟩
  | bulkDisconnect clientIp =>
      simp only [System.step] at hstep
      split at hstep <;> cases hstep
      exact ⟨_, _, rfl⟩
  | setCustomDomain tunnelId domain =>
      simp only [System.step] at hstep
      split at hstep
      · cases hstep
      · split at hstep <;> cases hstep <;> exact ⟨_, _, rfl⟩
  | _ => exact hlabel.elim

theorem System.sweep_cases {cfg : Config} {s s' : System} {now : Int}
    (hstep : s.step cfg (.sweep now) = some s') :
    s' = { s with shared := s.shared.sweep cfg now } := by
  simp only [System.step] at hstep
  split at hstep <;> cases hstep
  rfl

theorem System.shutdown_cases {cfg : Config} {s s' : System}
    (hstep : s.step cfg .shutdown = some s') :
    s' = { s with shared := s.shared.shutdown } := by
  simp only [System.step] at hstep
  split at hstep <;> cases hstep
  rfl

theorem System.routeDomain_cases {cfg : Config} {s s' : System} {n : Nat}
    (hstep : s.step cfg (.routeDomain n) = some s') : s.routeDomain n = some s' := by
  simp only [System.step] at hstep
  split at hstep
  · cases hstep
  · exact hstep

/-- A step of the relay is a connection, a handler's step, an eviction, or leaves
the registry alone. -/
theorem System.step_cases {cfg : Config} {s s' : System} {label : Label}
    (hstep : s.step cfg label = some s') : SystemStep cfg s label s' := by
  by_cases haside : label.Aside
  · obtain ⟨lists, admins, rfl⟩ := System.step_of_aside haside hstep
    exact .quiet ⟨rfl, rfl, rfl, rfl, rfl, rfl⟩
  cases label with
  | connect client =>
      cases hstep
      exact .connected client
  | handler i input =>
      obtain ⟨h, h', sh', hget, hhandler, rfl⟩ := System.handler_cases hstep
      exact .handled hget hhandler
  | sweep now =>
      obtain rfl := System.sweep_cases hstep
      exact .evicted trivial (Shared.evicts_sweep cfg now s.shared)
  | shutdown =>
      obtain rfl := System.shutdown_cases hstep
      exact .evicted trivial (Shared.evicts_shutdown s.shared)
  | removeCustomDomain tunnelId =>
      cases hstep
      exact .quiet ⟨rfl, rfl, rfl, rfl, rfl, rfl⟩
  | adminStep n => exact .quiet (quiet_adminStep hstep)
  | lookupDomain host =>
      simp only [System.step] at hstep
      split at hstep <;> cases hstep <;> exact .quiet ⟨rfl, rfl, rfl, rfl, rfl, rfl⟩
  | routeDomain n =>
      obtain ⟨lookups, routed, rfl⟩ := routeDomain_frame (System.routeDomain_cases hstep)
      exact .quiet ⟨rfl, rfl, rfl, rfl, rfl, rfl⟩
  | _ => exact absurd trivial haside

abbrev Reached (cfg : Config) (guard : System → Label → Prop) (lists : Lists)
    (labels : List Label) (s : System) : Prop :=
  Run (System.step cfg) guard (System.initial lists) labels s

def documentationIp : IpAddr := .v4 ⟨192, 0, 2, 1⟩

def admission (i : MuxId) (kind : TunnelKind) : List Label :=
  [.proceed,
    .received (.stream (.ofList (frameBytes (.register protocolVersion none kind)))),
    .instant 0, .proceed, .proceed].map (.handler i)

/-- The labels by which session `i` is registered under `sub`, up to the point
where it announces it. -/
def httpRegistration (i : MuxId) (sub : String) (unixNow : Int) : List Label :=
  admission i (.http (some sub)) ++ [.named "" unixNow 0, .proceed].map (.handler i)

/-- The labels by which session `i` is registered on `port`, up to its control
loop. -/
def tcpRegistration (i : MuxId) (port : UInt16) : List Label :=
  admission i (.tcp port) ++
    [.proceed, .bound true, .proceed, .wrote none, .clocks 0 0].map (.handler i)

theorem getElem?_set_cases {handlers : List Handler} {i j : MuxId} {h h' g : Handler}
    (hget : handlers[i]? = some h) (hj : (handlers.set i h')[j]? = some g) :
    (j = i ∧ g = h') ∨ (j ≠ i ∧ handlers[j]? = some g) := by
  have hlt : i < handlers.length := (List.getElem?_eq_some_iff.mp hget).1
  by_cases hji : j = i
  · subst hji
    rw [List.getElem?_set_self hlt] at hj
    exact .inl ⟨rfl, (Option.some.inj hj).symm⟩
  · rw [List.getElem?_set_ne (Ne.symm hji)] at hj
    exact .inr ⟨hji, hj⟩

theorem getElem?_concat_cases {handlers : List Handler} {j : MuxId} {a g : Handler}
    (hj : (handlers ++ [a])[j]? = some g) : handlers[j]? = some g ∨ g = a := by
  rcases Nat.lt_or_ge j handlers.length with hlt | hge
  · rw [List.getElem?_append_left hlt] at hj
    exact .inl hj
  · rw [List.getElem?_append_right hge, List.getElem?_singleton] at hj
    split at hj
    · exact .inr (Option.some.inj hj).symm
    · cases hj

/-- Where a handler of the next state comes from: its own step, the same handler
before, or a connection. -/
inductive HandlerOrigin (cfg : Config) (s : System) (label : Label) (s' : System) (j : MuxId)
    (g : Handler) : Prop
  | own {h : Handler} {input : Input} (hlabel : label = .handler j input)
      (hget : s.handlers[j]? = some h) (hstep : h.step cfg j s.shared input = some (g, s'.shared))
  | same (hlabel : ∀ input, label ≠ .handler j input) (hget : s.handlers[j]? = some g)
  | fresh {client : IpAddr} (hlabel : label = .connect client) (hg : g = .accepted client)

theorem System.handler_origin {cfg : Config} {s s' : System} {label : Label} {j : MuxId}
    {g : Handler} (hstep : s.step cfg label = some s') (hj : s'.handlers[j]? = some g) :
    HandlerOrigin cfg s label s' j g := by
  by_cases hhandler : ∃ i input, label = .handler i input
  · obtain ⟨i, input, rfl⟩ := hhandler
    obtain ⟨h, h', sh', hget, hown, rfl⟩ := System.handler_step hstep
    rcases getElem?_set_cases hget hj with ⟨rfl, rfl⟩ | ⟨hji, hj⟩
    · exact .own rfl hget hown
    · refine .same ?_ hj
      rintro input' heq
      cases heq
      exact hji rfl
  · have hother : ∀ input, label ≠ .handler j input :=
      fun input heq => hhandler ⟨j, input, heq⟩
    cases System.step_cases hstep with
    | connected client =>
        rcases getElem?_concat_cases hj with hj | rfl
        · exact .same hother hj
        · exact .fresh rfl rfl
    | handled => exact absurd rfl (fun heq => hhandler ⟨_, _, heq⟩)
    | evicted => exact .same hother hj
    | quiet hquiet => exact .same hother (hquiet.handlers ▸ hj)

theorem System.handler_goto {cfg : Config} {s s' : System} {i : MuxId} {input : Input}
    {h : Handler} {pc : Pc} (hget : s.handlers[i]? = some h)
    (hstep : s.step cfg (.handler i input) = some s')
    (hown : ∀ h' sh', h.step cfg i s.shared input = some (h', sh') → h' = h.goto pc) :
    s'.handlers[i]? = some (h.goto pc) := by
  obtain ⟨g, h', sh', hget', hg, rfl⟩ := System.handler_step hstep
  obtain rfl : h = g := Option.some.inj (hget.symm.trans hget')
  have hlt : i < s.handlers.length := (List.getElem?_eq_some_iff.mp hget).1
  rw [hown h' sh' hg]
  exact List.getElem?_set_self hlt

namespace System

def EachHandler (Q : MuxId → Handler → Prop) (s : System) : Prop :=
  ∀ i h, s.handlers[i]? = some h → Q i h

theorem EachHandler.step {cfg : Config} {Q : MuxId → Handler → Prop} {s s' : System}
    {label : Label} (hs : s.EachHandler Q) (hstep : s.step cfg label = some s')
    (haccepted : ∀ i client, Q i (.accepted client))
    (hkept : ∀ i sh h input h' sh', HandlerStep cfg i sh h input h' sh' → Q i h → Q i h') :
    s'.EachHandler Q := by
  intro j g hj
  cases System.handler_origin hstep hj with
  | own _ hget hown => exact hkept _ _ _ _ _ _ (Handler.step_cases hown) (hs j _ hget)
  | same _ hget => exact hs j g hget
  | fresh _ hg =>
      rw [hg]
      exact haccepted j _

/-- Handler `i` is there, and `Q` holds of it. -/
def At (Q : Handler → Prop) (i : MuxId) (s : System) : Prop :=
  ∃ h, s.handlers[i]? = some h ∧ Q h

theorem At.step {cfg : Config} {Q : Handler → Prop} {i : MuxId} {s s' : System}
    {label : Label} (hs : s.At Q i) (hstep : s.step cfg label = some s')
    (hkept : ∀ h input h' sh', s.handlers[i]? = some h → label = .handler i input →
      HandlerStep cfg i s.shared h input h' sh' → Q h → Q h') : s'.At Q i := by
  obtain ⟨h, hget, hQ⟩ := hs
  have hlt : i < s.handlers.length := (List.getElem?_eq_some_iff.mp hget).1
  have hstays : ∃ g, s'.handlers[i]? = some g := by
    cases System.step_cases hstep with
    | connected client => exact ⟨h, by simpa [List.getElem?_append_left hlt] using hget⟩
    | @handled j _ _ h' _ _ _ =>
        have hlt' : i < (s.handlers.set j h').length := by simpa using hlt
        exact ⟨_, List.getElem?_eq_getElem hlt'⟩
    | evicted => exact ⟨h, hget⟩
    | quiet hquiet => exact ⟨h, hquiet.handlers ▸ hget⟩
  obtain ⟨g, hg⟩ := hstays
  refine ⟨g, hg, ?_⟩
  cases System.handler_origin hstep hg with
  | own hlabel hold hown =>
      obtain rfl : h = _ := Option.some.inj (hget.symm.trans hold)
      exact hkept h _ g _ hget hlabel (Handler.step_cases hown) hQ
  | same _ hold =>
      obtain rfl : h = g := Option.some.inj (hget.symm.trans hold)
      exact hQ
  | fresh hlabel _ =>
      subst hlabel
      cases hstep
      rw [List.getElem?_append_left hlt] at hg
      obtain rfl : h = g := Option.some.inj (hget.symm.trans hg)
      exact hQ

theorem eachHandler_reached {cfg : Config} {Q : MuxId → Handler → Prop}
    {guard : System → Label → Prop} {lists : Lists} {labels : List Label} {s : System}
    (hrun : Reached cfg guard lists labels s)
    (haccepted : ∀ i client, Q i (.accepted client))
    (hkept : ∀ i sh h input h' sh', HandlerStep cfg i sh h input h' sh' → Q i h → Q i h') :
    s.EachHandler Q := by
  refine hrun.invariant ?_ fun t a u ht _ hstep => ht.step hstep haccepted hkept
  intro i h hi
  simp [System.initial] at hi

def WellFormed (s : System) : Prop := s.EachHandler Handler.WellFormed

theorem WellFormed.step {cfg : Config} {s s' : System} {label : Label} (hs : s.WellFormed)
    (hstep : s.step cfg label = some s') : s'.WellFormed :=
  EachHandler.step hs hstep
    (fun _ _ => ⟨by rintro entry ⟨⟩, by rintro sub ⟨⟩⟩)
    (fun _ _ _ _ _ _ hhandler hok => hhandler.wellFormed hok)

theorem wellFormed_initial (lists : Lists) : (System.initial lists).WellFormed := by
  intro i h hi
  simp [System.initial] at hi

theorem wellFormed_reached {cfg : Config} {guard : System → Label → Prop} {lists : Lists}
    {labels : List Label} {s : System} (hrun : Reached cfg guard lists labels s) :
    s.WellFormed :=
  hrun.invariant (wellFormed_initial lists) fun _ _ _ ht _ hstep => ht.step hstep

/-- What `f` says about the place where handler `i` stands. -/
def view {α : Type} (f : Pc → Option α) (s : System) (i : MuxId) : Option α :=
  (s.handlers[i]?).bind fun h => f h.pc

section View

variable {α : Type} {f : Pc → Option α} {s : System} {i j : MuxId} {h h' : Handler}
  {sh' : Shared}

theorem view_of_get (hget : s.handlers[i]? = some h) : s.view f i = f h.pc := by
  simp [view, hget]

theorem exists_of_view {a : α} (hview : s.view f i = some a) :
    ∃ g, s.handlers[i]? = some g ∧ f g.pc = some a := by
  simpa [view, Option.bind_eq_some_iff] using hview

theorem view_connect (client : IpAddr) (hstart : f .start = none) (j : MuxId) :
    view f { s with handlers := s.handlers ++ [.accepted client] } j = s.view f j := by
  simp only [view]
  rcases Nat.lt_or_ge j s.handlers.length with hlt | hge
  · rw [List.getElem?_append_left hlt]
  · rw [List.getElem?_append_right hge, List.getElem?_eq_none hge, List.getElem?_singleton]
    split
    · simpa [Handler.accepted] using hstart
    · rfl

theorem view_set_self (hget : s.handlers[i]? = some h) :
    view f { s with shared := sh', handlers := s.handlers.set i h' } i = f h'.pc := by
  have hlt : i < s.handlers.length := (List.getElem?_eq_some_iff.mp hget).1
  simp [view, List.getElem?_set_self hlt]

theorem view_set_ne (hji : j ≠ i) :
    view f { s with shared := sh', handlers := s.handlers.set i h' } j = s.view f j := by
  simp only [view]
  rw [List.getElem?_set_ne (Ne.symm hji)]

end View

end System

end Seamless.Relay
