import Seamless.Relay.AdminApi
import Seamless.Relay.HostRouting

/-!
Pausing a tunnel. The flag belongs to the entry, and so to its session. The HTTP
ingress tests it between the lookup of the tunnel and the data stream; the listener
of a TCP tunnel opens a data stream for whatever it accepts.
-/

namespace Seamless.Relay

open Seamless.Common
open Seamless.Library
open Seamless.Library.Text
open Seamless.Library.TransitionSystem

/-- How far a public connection has got. -/
inductive Place where
  -- In `route_http`, with the head still to be read.
  | reading
  -- No proxy route takes the host.
  | unrouted (host : String)
  | resolved (key : String)
  | found (mux : MuxId)
  -- A data stream is about to be opened.
  | admitted (mux : MuxId)
  | closed
  deriving Repr, DecidableEq

/-- A public connection. `during` is history: the sessions that were paused when it
was accepted; `resumed` are those that were resumed since. -/
structure PublicConn where
  place : Place
  during : List MuxId
  resumed : List MuxId
  deriving Repr, DecidableEq

/-- A data stream that was opened, with the history of its connection. -/
structure OpenedStream where
  mux : MuxId
  during : List MuxId
  resumed : List MuxId
  deriving Repr, DecidableEq

structure FlagRequest where
  mux : MuxId
  paused : Bool
  deriving Repr, DecidableEq

/-- The relay with its public connections. `paused` are the sessions whose flag is
set, `requests` the pause and resume requests that have found their entry. -/
structure Gated where
  sys : System
  paused : List MuxId
  requests : List FlagRequest
  conns : List PublicConn
  opened : List OpenedStream

def Gated.initial (lists : Lists) : Gated := ⟨.initial lists, [], [], [], []⟩

inductive GateMove where
  | relay (label : Label)
  -- `admin_pause_tunnel` or `admin_resume_tunnel` looks up its tunnel.
  | request (paused : Bool) (id : String)
  -- Request `n` stores the flag and completes.
  | store (n : Nat)
  | acceptHttp
  | matchRoutes (n : Nat) (routes : List ProxyRoute) (host : String)
  | resolveHost (n : Nat)
  | findTunnel (n : Nat)
  -- The flag, and then the answer of the token bucket.
  | checkPaused (n : Nat) (allowed : Bool)
  -- The listener task of session `i` accepts a connection.
  | acceptTcp (i : MuxId)
  | openStream (n : Nat)

/-- The port on which the listener task of a call is running. -/
def Pc.acceptingPort : Pc → Option UInt16
  | .looping (.tcp port) => some port
  | .tcpShutdown port => some port
  | _ => none

namespace Gated

def ingress (cfg : Config) (routes : List ProxyRoute) (p : Gated) : Ingress :=
  { Ingress.tunnelsOnly cfg.baseDomain p.sys.shared.tunnels with
    caseMap := cfg.caseMap
    routes := routes
    customDomains := p.sys.shared.customDomains }

def accept (p : Gated) (place : Place) : Gated :=
  { p with conns := p.conns ++ [⟨place, p.paused, []⟩] }

def moveTo (p : Gated) (n : Nat) (c : PublicConn) (place : Place) : Gated :=
  { p with conns := p.conns.set n { c with place := place } }

def setFlag (p : Gated) (r : FlagRequest) : Gated :=
  if r.paused then { p with paused := r.mux :: p.paused }
  else
    { p with
      paused := p.paused.filter fun m => m != r.mux
      conns := p.conns.map fun c => { c with resumed := r.mux :: c.resumed } }

def openStream (p : Gated) (n : Nat) (c : PublicConn) (mux : MuxId) : Gated :=
  { p.moveTo n c .closed with opened := ⟨mux, c.during, c.resumed⟩ :: p.opened }

def step (cfg : Config) (p : Gated) : GateMove → Option Gated
  | .relay label => (p.sys.step cfg label).map fun sys => { p with sys := sys }
  | .request paused id =>
      if p.sys.shared.lock.isSome then none
      else
        match p.sys.shared.holder id with
        | some mux => some { p with requests := ⟨mux, paused⟩ :: p.requests }
        | none => some p
  | .store n =>
      match p.requests[n]? with
      | some r => some ({ p with requests := p.requests.eraseIdx n }.setFlag r)
      | none => none
  | .acceptHttp => some (p.accept .reading)
  | .matchRoutes n routes host =>
      match p.conns[n]? with
      | some c =>
          if c.place = .reading then
            match (p.ingress cfg routes).matchedRoute host with
            | some _ => some (p.moveTo n c .closed)
            | none => some (p.moveTo n c (.unrouted host))
          else none
      | none => none
  | .resolveHost n =>
      match p.conns[n]? with
      | some c =>
          match c.place with
          | .unrouted host =>
              match (p.ingress cfg []).tunnelKey host with
              | some key => some (p.moveTo n c (.resolved key))
              | none => some (p.moveTo n c .closed)
          | _ => none
      | none => none
  | .findTunnel n =>
      match p.conns[n]? with
      | some c =>
          match c.place with
          | .resolved key =>
              if p.sys.shared.lock.isSome then none
              else
                match p.sys.shared.holder key with
                | some mux => some (p.moveTo n c (.found mux))
                | none => some (p.moveTo n c .closed)
          | _ => none
      | none => none
  | .checkPaused n allowed =>
      match p.conns[n]? with
      | some c =>
          match c.place with
          | .found mux =>
              if mux ∈ p.paused then some (p.moveTo n c .closed)
              else some (p.moveTo n c (if allowed then .admitted mux else .closed))
          | _ => none
      | none => none
  | .acceptTcp i =>
      match p.sys.handlers[i]? with
      | some h => if h.pc.acceptingPort.isSome then some (p.accept (.admitted i)) else none
      | none => none
  | .openStream n =>
      match p.conns[n]? with
      | some c =>
          match c.place with
          | .admitted mux => some (p.openStream n c mux)
          | _ => none
      | none => none

end Gated

/-- Everything a step can do to the flags and the public connections. -/
inductive GatedStep (p : Gated) : GateMove → Gated → Prop
  | aside {move : GateMove} {p' : Gated} (hpaused : p'.paused = p.paused)
      (hconns : p'.conns = p.conns) (hopened : p'.opened = p.opened) : GatedStep p move p'
  | stored {n : Nat} {r : FlagRequest} {p₁ : Gated} (hget : p.requests[n]? = some r)
      (hpaused : p₁.paused = p.paused) (hconns : p₁.conns = p.conns)
      (hopened : p₁.opened = p.opened) : GatedStep p (.store n) (p₁.setFlag r)
  | acceptedHttp : GatedStep p .acceptHttp (p.accept .reading)
  | acceptedTcp {i : MuxId} : GatedStep p (.acceptTcp i) (p.accept (.admitted i))
  | moved {move : GateMove} {n : Nat} {c : PublicConn} {place : Place}
      (hget : p.conns[n]? = some c) (hopen : c.place ≠ .closed)
      (hplace : ∀ mux, place ≠ .admitted mux) : GatedStep p move (p.moveTo n c place)
  | passed {move : GateMove} {n : Nat} {c : PublicConn} {mux : MuxId}
      (hget : p.conns[n]? = some c) (hopen : c.place ≠ .closed) (hflag : mux ∉ p.paused) :
      GatedStep p move (p.moveTo n c (.admitted mux))
  | opened {n : Nat} {c : PublicConn} {mux : MuxId} (hget : p.conns[n]? = some c)
      (hplace : c.place = .admitted mux) : GatedStep p (.openStream n) (p.openStream n c mux)

theorem Gated.step_cases {cfg : Config} {p p' : Gated} {move : GateMove}
    (hstep : p.step cfg move = some p') : GatedStep p move p' := by
  cases move with
  | relay label =>
      obtain ⟨sys, -, rfl⟩ := Option.map_eq_some_iff.mp hstep
      exact .aside rfl rfl rfl
  | request paused id =>
      simp only [Gated.step] at hstep
      split at hstep
      · cases hstep
      · split at hstep <;> cases hstep <;> exact .aside rfl rfl rfl
  | store n =>
      simp only [Gated.step] at hstep
      split at hstep
      · rename_i r hget
        cases hstep
        exact .stored hget rfl rfl rfl
      · cases hstep
  | acceptHttp =>
      cases hstep
      exact .acceptedHttp
  | matchRoutes n routes host =>
      simp only [Gated.step] at hstep
      split at hstep
      · rename_i c hget
        split at hstep
        · rename_i hplace
          split at hstep <;> cases hstep <;> exact .moved hget (by simp [hplace]) (by simp)
        · cases hstep
      · cases hstep
  | resolveHost n =>
      simp only [Gated.step] at hstep
      split at hstep
      · rename_i c hget
        split at hstep
        · rename_i hplace
          split at hstep <;> cases hstep <;> exact .moved hget (by simp [hplace]) (by simp)
        · cases hstep
      · cases hstep
  | findTunnel n =>
      simp only [Gated.step] at hstep
      split at hstep
      · rename_i c hget
        split at hstep
        · rename_i hplace
          split at hstep
          · cases hstep
          · split at hstep <;> cases hstep <;> exact .moved hget (by simp [hplace]) (by simp)
        · cases hstep
      · cases hstep
  | checkPaused n allowed =>
      simp only [Gated.step] at hstep
      split at hstep
      · rename_i c hget
        split at hstep
        · rename_i hplace
          have hopen : c.place ≠ .closed := by simp [hplace]
          split at hstep
          · cases hstep
            exact .moved hget hopen (by simp)
          · rename_i hflag
            cases hstep
            split
            · exact .passed hget hopen hflag
            · exact .moved hget hopen (by simp)
        · cases hstep
      · cases hstep
  | acceptTcp i =>
      simp only [Gated.step] at hstep
      split at hstep
      · split at hstep <;> cases hstep
        exact .acceptedTcp
      · cases hstep
  | openStream n =>
      simp only [Gated.step] at hstep
      split at hstep
      · rename_i c hget
        split at hstep
        · rename_i hplace
          cases hstep
          exact .opened hget hplace
        · cases hstep
      · cases hstep

/-- An entry as the admin API and the ingress see it. -/
def Gated.flagged (p : Gated) (entry : TunnelEntry) : TunnelEntry :=
  { entry with paused := decide (entry.mux ∈ p.paused) }

section Sequential

variable {cfg : Config} {p p' : Gated} {id : String} {e : TunnelEntry}

theorem Owned.mux_injective {s : System} (hs : Owned s) {k k' : String} {e e' : TunnelEntry}
    (hk : s.shared.tunnels.lookup k = some e) (hk' : s.shared.tunnels.lookup k' = some e')
    (hmux : e.mux = e'.mux) : k = k' := by
  have hheld := hs.entry k e hk
  rw [hmux, hs.entry k' e' hk'] at hheld
  exact (Option.some.inj hheld).symm

theorem Gated.mem_setFlag {r : FlagRequest} {m : MuxId} :
    m ∈ (p.setFlag r).paused ↔ if m = r.mux then r.paused = true else m ∈ p.paused := by
  unfold setFlag
  split <;> split <;> simp_all

theorem Gated.setFlag_sys (r : FlagRequest) : (p.setFlag r).sys = p.sys := by
  unfold setFlag
  split <;> rfl

theorem request_adminSetPaused {s : AdminState} {paused : Bool} (howned : Owned p.sys)
    (hview : ∀ k, s.shared.tunnels.lookup k = (p.sys.shared.tunnels.lookup k).map p.flagged)
    (hid : p.sys.shared.tunnels.lookup id = some e)
    (hexec : exec (Gated.step cfg) p [.request paused id, .store 0] = some p') (k : String) :
    (s.adminSetPaused paused id).2.shared.tunnels.lookup k =
      (p'.sys.shared.tunnels.lookup k).map p'.flagged := by
  have hholder : p.sys.shared.holder id = some e.mux := Shared.holder_eq_some.mpr ⟨e, hid, rfl⟩
  obtain ⟨p₁, hp₁, rfl⟩ : ∃ p₁ : Gated, (p₁.sys = p.sys ∧ p₁.paused = p.paused) ∧
      p' = p₁.setFlag ⟨e.mux, paused⟩ := by
    simp only [exec, Gated.step, hholder] at hexec
    split at hexec
    · cases hexec
    · cases hexec
      exact ⟨_, ⟨rfl, rfl⟩, rfl⟩
  have hid' : s.shared.tunnels.lookup id = some (p.flagged e) := by rw [hview, hid]; rfl
  simp only [AdminState.adminSetPaused, AdminState.onTunnel, hid', AdminState.setEntry,
    Shared.insertTunnel, Gated.setFlag_sys, hp₁.1]
  by_cases hkey : k = id
  · subst hkey
    simp [AList.lookup_insert, hid, Gated.flagged, Gated.mem_setFlag]
  · rw [AList.lookup_insert_ne hkey, hview]
    cases hk : p.sys.shared.tunnels.lookup k with
    | none => rfl
    | some e' =>
        have hmux : e'.mux ≠ e.mux := fun hmux => hkey (howned.mux_injective hk hid hmux)
        simp [Gated.flagged, Gated.mem_setFlag, hmux, hp₁.2]

theorem checkPaused_routeToTunnel {ing : Ingress} {conn : Connection} {key : String}
    {head : List UInt8} {rest : ByteSource} {n : Nat} {c : PublicConn}
    (hget : p.conns[n]? = some c) (hplace : c.place = .found e.mux) :
    p.step cfg (.checkPaused n (e.ddos.check ing.now).1) = some (p.moveTo n c
      (match (ing.routeToTunnel conn key (p.flagged e) head rest).1 with
      | .tunnelled _ mux _ => .admitted mux
      | _ => .closed)) := by
  simp only [Gated.step, hget, hplace]
  by_cases hflag : e.mux ∈ p.paused
  · simp [Ingress.routeToTunnel, Gated.flagged, hflag]
  · cases hbucket : (e.ddos.check ing.now).1 <;>
      simp [Ingress.routeToTunnel, Gated.flagged, hflag, hbucket]

end Sequential

/-- The listener of a TCP tunnel accepts no connection while the tunnel is paused. -/
def NoPausedAccept (p : Gated) : GateMove → Prop
  | .acceptTcp i => i ∉ p.paused
  | _ => True

instance : ∀ (p : Gated) (move : GateMove), Decidable (NoPausedAccept p move)
  | p, .acceptTcp i => inferInstanceAs (Decidable (i ∉ p.paused))
  | _, .relay _ | _, .request _ _ | _, .store _ | _, .acceptHttp | _, .matchRoutes _ _ _
  | _, .resolveHost _ | _, .findTunnel _ | _, .checkPaused _ _ | _, .openStream _ =>
      .isTrue trivial

/-- No tunnel is resumed while a connection that came in during the pause is still
on its way. -/
def NoEarlyResume (p : Gated) : GateMove → Prop
  | .store n => ∀ r ∈ p.requests[n]?, r.paused = false → ∀ c ∈ p.conns, r.mux ∈ c.during →
      c.place = .closed
  | _ => True

instance : ∀ (p : Gated) (move : GateMove), Decidable (NoEarlyResume p move)
  | p, .store n =>
      inferInstanceAs (Decidable (∀ r ∈ p.requests[n]?, r.paused = false → ∀ c ∈ p.conns,
        r.mux ∈ c.during → c.place = .closed))
  | _, .relay _ | _, .request _ _ | _, .acceptTcp _ | _, .acceptHttp | _, .matchRoutes _ _ _
  | _, .resolveHost _ | _, .findTunnel _ | _, .checkPaused _ _ | _, .openStream _ =>
      .isTrue trivial

/-- A data stream for a connection that was accepted during a pause is opened only
after the tunnel was resumed. -/
def PauseBlocks (p : Gated) : Prop := ∀ o ∈ p.opened, o.mux ∈ o.during → o.mux ∈ o.resumed

/-- What holds of the connections on their way. -/
structure PauseSound (p : Gated) : Prop where
  flagged : ∀ c ∈ p.conns, ∀ m ∈ c.during, m ∉ c.resumed → m ∈ p.paused
  admitted : ∀ c ∈ p.conns, ∀ m, c.place = .admitted m → m ∈ c.during → m ∈ c.resumed
  blocks : PauseBlocks p

section Sound

variable {cfg : Config} {p p' : Gated} {move : GateMove}

theorem Gated.mem_moveTo {n : Nat} {c d : PublicConn} {place : Place}
    (hd : d ∈ (p.moveTo n c place).conns) : d ∈ p.conns ∨ d = { c with place := place } :=
  List.mem_or_eq_of_mem_set hd

theorem PauseSound.moveTo (hs : PauseSound p) {n : Nat} {c : PublicConn} {place : Place}
    (hget : p.conns[n]? = some c)
    (hplace : ∀ m, place = .admitted m → m ∈ c.during → m ∈ c.resumed) :
    PauseSound (p.moveTo n c place) where
  flagged := by
    intro d hd
    rcases Gated.mem_moveTo hd with hold | rfl
    · exact hs.flagged d hold
    · exact hs.flagged c (List.mem_of_getElem? hget)
  admitted := by
    intro d hd
    rcases Gated.mem_moveTo hd with hold | rfl
    · exact hs.admitted d hold
    · exact hplace
  blocks := hs.blocks

theorem PauseSound.accept (hs : PauseSound p) {place : Place}
    (hplace : ∀ m, place = .admitted m → m ∉ p.paused) : PauseSound (p.accept place) where
  flagged := by
    intro d hd m hm hnot
    rcases List.mem_append.mp hd with hold | hnew
    · exact hs.flagged d hold m hm hnot
    · obtain rfl := List.mem_singleton.mp hnew
      exact hm
  admitted := by
    intro d hd m hat hm
    rcases List.mem_append.mp hd with hold | hnew
    · exact hs.admitted d hold m hat hm
    · obtain rfl := List.mem_singleton.mp hnew
      exact absurd hm (hplace m hat)
  blocks := hs.blocks

theorem PauseSound.setFlag (hs : PauseSound p) (r : FlagRequest) : PauseSound (p.setFlag r) := by
  unfold Gated.setFlag
  split
  · refine ⟨?_, hs.admitted, hs.blocks⟩
    intro c hc m hm hnot
    exact List.mem_cons_of_mem _ (hs.flagged c hc m hm hnot)
  · refine ⟨?_, ?_, hs.blocks⟩
    · intro d hd m hm hnot
      obtain ⟨c, hc, rfl⟩ := List.mem_map.mp hd
      rw [List.mem_cons, not_or] at hnot
      exact List.mem_filter.mpr ⟨hs.flagged c hc m hm hnot.2, by simpa using hnot.1⟩
    · intro d hd m hat hm
      obtain ⟨c, hc, rfl⟩ := List.mem_map.mp hd
      exact List.mem_cons_of_mem _ (hs.admitted c hc m hat hm)

theorem PauseSound.congr (hs : PauseSound p) (hpaused : p'.paused = p.paused)
    (hconns : p'.conns = p.conns) (hopened : p'.opened = p.opened) : PauseSound p' := by
  refine ⟨?_, ?_, ?_⟩
  · rw [hconns, hpaused]
    exact hs.flagged
  · rw [hconns]
    exact hs.admitted
  · rw [PauseBlocks, hopened]
    exact hs.blocks

theorem PauseSound.step (hs : PauseSound p) (hguard : NoPausedAccept p move)
    (hstep : p.step cfg move = some p') : PauseSound p' := by
  cases Gated.step_cases hstep with
  | aside hpaused hconns hopened => exact hs.congr hpaused hconns hopened
  | stored _ hpaused hconns hopened => exact (hs.congr hpaused hconns hopened).setFlag _
  | acceptedHttp => exact hs.accept (by simp)
  | acceptedTcp =>
      refine hs.accept ?_
      rintro m ⟨⟩
      exact hguard
  | moved hget _ hplace => exact hs.moveTo hget fun m hat => absurd hat (hplace m)
  | @passed _ n c mux hget _ hflag =>
      refine hs.moveTo hget ?_
      rintro m ⟨⟩ hm
      -- Paused at the accept and not any more: it was resumed since.
      by_contra hnot
      exact hflag (hs.flagged c (List.mem_of_getElem? hget) _ hm hnot)
  | @opened n c mux hget hplace =>
      have hmoved : PauseSound (p.moveTo n c .closed) := hs.moveTo hget (by simp)
      refine ⟨hmoved.flagged, hmoved.admitted, ?_⟩
      intro o ho
      rcases List.mem_cons.mp ho with rfl | hold
      · exact hs.admitted c (List.mem_of_getElem? hget) mux hplace
      · exact hs.blocks o hold

theorem pauseSound_initial (lists : Lists) : PauseSound (Gated.initial lists) where
  flagged := by simp [Gated.initial]
  admitted := by simp [Gated.initial]
  blocks := by simp [PauseBlocks, Gated.initial]

/-- Nothing is resumed under a connection that came in during the pause. -/
structure Unresumed (p : Gated) : Prop where
  conns : ∀ c ∈ p.conns, c.place ≠ .closed → ∀ m ∈ c.during, m ∉ c.resumed
  opened : ∀ o ∈ p.opened, ∀ m ∈ o.during, m ∉ o.resumed

theorem Unresumed.moveTo (hs : Unresumed p) {n : Nat} {c : PublicConn}
    (hget : p.conns[n]? = some c) (hopen : c.place ≠ .closed) (place : Place) :
    Unresumed (p.moveTo n c place) where
  conns := by
    intro d hd hplace
    rcases Gated.mem_moveTo hd with hold | rfl
    · exact hs.conns d hold hplace
    · exact hs.conns c (List.mem_of_getElem? hget) hopen
  opened := hs.opened

theorem Unresumed.accept (hs : Unresumed p) (place : Place) : Unresumed (p.accept place) where
  conns := by
    intro d hd hplace
    rcases List.mem_append.mp hd with hold | hnew
    · exact hs.conns d hold hplace
    · obtain rfl := List.mem_singleton.mp hnew
      simp
  opened := hs.opened

theorem Unresumed.setFlag (hs : Unresumed p) {r : FlagRequest}
    (hguard : r.paused = false → ∀ c ∈ p.conns, r.mux ∈ c.during → c.place = .closed) :
    Unresumed (p.setFlag r) := by
  unfold Gated.setFlag
  split
  · exact ⟨hs.conns, hs.opened⟩
  · rename_i hresume
    refine ⟨?_, hs.opened⟩
    intro d hd hplace m hm
    obtain ⟨c, hc, rfl⟩ := List.mem_map.mp hd
    rw [List.mem_cons, not_or]
    refine ⟨?_, hs.conns c hc hplace m hm⟩
    rintro rfl
    exact hplace (hguard (by simpa using hresume) c hc hm)

theorem Unresumed.congr (hs : Unresumed p) (hconns : p'.conns = p.conns)
    (hopened : p'.opened = p.opened) : Unresumed p' := by
  refine ⟨?_, ?_⟩
  · rw [hconns]
    exact hs.conns
  · rw [hopened]
    exact hs.opened

theorem Unresumed.step (hs : Unresumed p) (hguard : NoEarlyResume p move)
    (hstep : p.step cfg move = some p') : Unresumed p' := by
  cases Gated.step_cases hstep with
  | aside _ hconns hopened => exact hs.congr hconns hopened
  | @stored n r p₁ hget _ hconns hopened =>
      refine (hs.congr hconns hopened).setFlag ?_
      rw [hconns]
      exact hguard r hget
  | acceptedHttp => exact hs.accept .reading
  | acceptedTcp => exact hs.accept (.admitted _)
  | moved hget hopen => exact hs.moveTo hget hopen _
  | passed hget hopen => exact hs.moveTo hget hopen _
  | @opened n c mux hget hplace =>
      have hopen : c.place ≠ .closed := by simp [hplace]
      refine ⟨(hs.moveTo hget hopen .closed).conns, ?_⟩
      intro o ho
      rcases List.mem_cons.mp ho with rfl | hold
      · exact hs.conns c (List.mem_of_getElem? hget) hopen
      · exact hs.opened o hold

end Sound

/-- As long as no listener accepts for a paused tunnel, a connection that was
accepted during a pause gets no data stream before the tunnel is resumed; and none at
all, if no tunnel is resumed under such a connection. -/
theorem pause_blocks_connections {cfg : Config} {lists : Lists} {moves : List GateMove}
    {p : Gated}
    (hrun : Run (Gated.step cfg) NoPausedAccept (Gated.initial lists) moves p) :
    PauseBlocks p ∧
      (Run (Gated.step cfg) NoEarlyResume (Gated.initial lists) moves p →
        ∀ o ∈ p.opened, o.mux ∉ o.during) := by
  have hsound : PauseSound p :=
    hrun.invariant (pauseSound_initial lists) fun _ _ _ hs hguard hstep => hs.step hguard hstep
  refine ⟨hsound.blocks, ?_⟩
  intro hresume o ho hduring
  have hunresumed : Unresumed p := by
    refine hresume.invariant ?_ fun _ _ _ hs hguard hstep => hs.step hguard hstep
    exact ⟨by simp [Gated.initial], by simp [Gated.initial]⟩
  exact hunresumed.opened o ho o.mux hduring (hsound.blocks o ho hduring)

/-- An HTTP tunnel is paused, a request comes in and finds the flag set; after the
tunnel is resumed, the next request gets its stream. -/
def pausedHttp : List GateMove :=
  (.connect documentationIp :: httpRegistration 0 "app" 0).map .relay ++
    ([.request true "app", .store 0, .acceptHttp, .matchRoutes 0 [] "app.relay.test",
      .resolveHost 0, .findTunnel 0, .checkPaused 0 true, .request false "app", .store 0,
      .acceptHttp, .matchRoutes 1 [] "app.relay.test", .resolveHost 1, .findTunnel 1,
      .checkPaused 1 true, .openStream 1] : List GateMove)

theorem pause_blocks_pausedHttp :
    ∃ p, Run (Gated.step (.unlimited "relay.test")) NoPausedAccept (Gated.initial .disabled)
        pausedHttp p ∧
      p.opened = [⟨0, [], []⟩] ∧ p.conns.map PublicConn.during = [[0], []] ∧ PauseBlocks p ∧
      ∀ o ∈ p.opened, o.mux ∉ o.during := by
  have hexec : (execGuarded (Gated.step (.unlimited "relay.test"))
      (fun p move => NoPausedAccept p move ∧ NoEarlyResume p move) (Gated.initial .disabled)
      pausedHttp).map (fun p => (p.opened, p.conns.map PublicConn.during)) =
        some ([⟨0, [], []⟩], [[0], []]) := by
    decide +kernel
  obtain ⟨p, hrun, hfacts⟩ := exists_run hexec
  obtain ⟨hopened, hconns⟩ := Prod.mk.inj hfacts
  have haccept := hrun.mono fun _ _ hguard => hguard.1
  have hresume := hrun.mono fun _ _ hguard => hguard.2
  obtain ⟨hblocks, hnone⟩ := pause_blocks_connections haccept
  exact ⟨p, haccept, hopened, hconns, hblocks, hnone hresume⟩

/-- A TCP tunnel is paused, and a connection comes in. -/
def pausedTcp : List GateMove :=
  (.connect documentationIp :: tcpRegistration 0 4000).map .relay ++
    ([.request true "tcp:4000", .store 0, .acceptTcp 0, .openStream 0] : List GateMove)

theorem not_pauseBlocks_pausedTcp :
    ¬ ∀ (cfg : Config) (lists : Lists) (moves : List GateMove) (p : Gated),
      FreeRun (Gated.step cfg) (Gated.initial lists) moves p → PauseBlocks p := by
  intro hall
  have hexec : (exec (Gated.step (.unlimited "relay.test")) (Gated.initial .disabled)
      pausedTcp).map Gated.opened = some [⟨0, [0], []⟩] := by
    decide +kernel
  obtain ⟨p, hrun, hopened⟩ := exists_freeRun hexec
  have hblocks := hall _ _ _ p hrun ⟨0, [0], []⟩ (by simp [hopened])
  simp at hblocks

end Seamless.Relay
