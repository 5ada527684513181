import Seamless.Relay.PassthroughRuns

/-!
Every peer that an accept loop takes has one turn of its own in it, with one outcome: one of the
three refusals, the wait for the rate limiter, or a connection. What the loop reports are the
refusals of its turns, and the connections are those of the turns that got one.
-/

namespace Seamless.Relay

open Seamless.Library.NetAddr
open Seamless.Library.TransitionSystem

/-- What has become of a peer. -/
inductive Fate where
  | waiting
  | denied
  | geoBlocked (country : String)
  | rateLimited
  | connected (c : Nat)
  deriving Repr, DecidableEq

/-- One turn of an accept loop. -/
structure Turn where
  peer : SocketAddr
  fate : Fate
  deriving Repr, DecidableEq

/-- The rate limiter has answered. -/
def Fate.isLimited : Fate → Bool
  | .rateLimited | .connected _ => true
  | .waiting | .denied | .geoBlocked _ => false

/-- The checks before the rate limiter decided so. -/
def Fate.Fits (geoip : GeoipFilter) (lists : Lists) (ip : IpAddr) : Fate → Prop
  | .denied => lists.denies ip = true
  | .geoBlocked country =>
      lists.denies ip = false ∧ geoip.isBlocked ip = true ∧ geoip.countryCode ip = some country
  | .waiting | .rateLimited | .connected _ =>
      lists.denies ip = false ∧ geoip.isBlocked ip = false

/-- What a turn reports: the audit entry of its refusal, and nothing without one. -/
def Turn.notices (pcfg : TcpPassthroughConfig) (turn : Turn) : List Notice :=
  match turn.fate with
  | .waiting | .connected _ => []
  | .denied => [.audit (.passthroughDenied turn.peer.toString pcfg.listenPort)]
  | .geoBlocked country =>
      [.audit (.passthroughGeoBlocked turn.peer.toString pcfg.listenPort country)]
  | .rateLimited => pcfg.reportLimited turn.peer

def Happening.acceptedBy (n : Nat) : Happening → Option SocketAddr
  | .accepted m peer => if m = n then some peer else none
  | _ => none

/-- Listener `n` takes the peer of its turn `k`, and the checks decide as the turn says. -/
def Turn.Screened (cfg : ServiceConfig) (n k : Nat) (turn : Turn) (before : List Happening)
    (s : Service) (a : Happening) : Prop :=
  a = .accepted n turn.peer ∧ (before.filterMap (Happening.acceptedBy n)).length = k ∧
    turn.fate.Fits cfg.geoip s.system.shared.lists turn.peer.ip

/-- Listener `n` gets the answer of the rate limiter in its turn `k`. -/
def Turn.Limited (cfg : ServiceConfig) (n k : Nat) (turn : Turn) (before : List Happening)
    (s : Service) (a : Happening) : Prop :=
  (before.filterMap (Happening.acceptedBy n)).length = k + 1 ∧ ∃ now allowed,
    a = .limited n now ∧
    (checkAndRecord cfg.relay s.system.shared.rates turn.peer.ip.toString now).1 = allowed ∧
    turn.fate = if allowed then .connected s.connections.length else .rateLimited

/-- Only the last turn can be waiting, and then the loop waits with it. -/
def AcceptLoop.After (turns : List Turn) : AcceptLoop → Prop
  | .accepting => ∀ turn ∈ turns, turn.fate ≠ .waiting
  | .limiting peer => ∃ past, turns = past ++ [⟨peer, .waiting⟩] ∧
      ∀ turn ∈ past, turn.fate ≠ .waiting

/-- The turns of each listener, one for each peer that it took, in their order. -/
structure Ledger (cfg : ServiceConfig) (lists : Lists) (cfgs : List TcpPassthroughConfig)
    (happenings : List Happening) (s : Service) (turns : Nat → List Turn) : Prop where
  taken : ∀ n, (turns n).map Turn.peer = happenings.filterMap (Happening.acceptedBy n)
  reported : ∀ (n : Nat) (pcfg : TcpPassthroughConfig) (loop : AcceptLoop),
    s.listeners[n]? = some ⟨pcfg, loop⟩ →
      s.reportsOf (.listener n) = (turns n).flatMap (Turn.notices pcfg)
  standing : ∀ (n : Nat) (pcfg : TcpPassthroughConfig) (loop : AcceptLoop),
    s.listeners[n]? = some ⟨pcfg, loop⟩ → loop.After (turns n)
  screened : ∀ (n k : Nat) (turn : Turn), (turns n)[k]? = some turn →
    OccurredAfter (Service.step cfg) (turn.Screened cfg n k) (.initial lists cfgs) happenings
  limited : ∀ (n k : Nat) (turn : Turn), (turns n)[k]? = some turn → turn.fate.isLimited = true →
    OccurredAfter (Service.step cfg) (turn.Limited cfg n k) (.initial lists cfgs) happenings
  served : ∀ (n k : Nat) (peer : SocketAddr) (c : Nat),
    (turns n)[k]? = some ⟨peer, .connected c⟩ → ∃ (conn : PassthroughConnection) (loop : AcceptLoop),
      s.connections[c]? = some conn ∧ s.listeners[n]? = some ⟨conn.cfg, loop⟩ ∧ conn.peer = peer
  once : ∀ c < s.connections.length, ∃! place : Nat × Nat,
    ∃ peer, (turns place.1)[place.2]? = some ⟨peer, .connected c⟩

theorem TcpPassthroughConfig.exists_fate (pcfg : TcpPassthroughConfig) (lists : Lists)
    (geoip : GeoipFilter) (peer : SocketAddr) :
    ∃ fate : Fate, fate.Fits geoip lists peer.ip ∧ fate.isLimited = false ∧
      (pcfg.screen lists geoip peer).2 = Turn.notices pcfg ⟨peer, fate⟩ ∧
      ((pcfg.screen lists geoip peer).1 = .accepting ∧ fate ≠ .waiting ∨
        (pcfg.screen lists geoip peer).1 = .limiting peer ∧ fate = .waiting) := by
  rw [TcpPassthroughConfig.screen_eq]
  split
  · rename_i hdenied
    exact ⟨.denied, hdenied, rfl, rfl, .inl ⟨rfl, by simp⟩⟩
  · rename_i hallowed
    have hallowed : lists.denies peer.ip = false := by simpa using hallowed
    split
    · rename_i hblocked
      obtain ⟨country, hcountry, -⟩ := (geoip.isBlocked_iff peer.ip).mp hblocked
      refine ⟨.geoBlocked country, ⟨hallowed, hblocked, hcountry⟩, rfl, ?_, .inl ⟨rfl, by simp⟩⟩
      rw [hcountry]
      rfl
    · rename_i hopen
      exact ⟨.waiting, ⟨hallowed, by simpa using hopen⟩, rfl, rfl, .inr ⟨rfl, rfl⟩⟩

section Lookup

variable {turns : Nat → List Turn} {past : List Turn} {n m k : Nat} {new turn : Turn}

theorem lookup_concat :
    (past ++ [new])[k]? = some turn ↔ past[k]? = some turn ∨ k = past.length ∧ turn = new := by
  rcases Nat.lt_trichotomy k past.length with hlt | rfl | hgt
  · rw [List.getElem?_append_left hlt]
    simp [Nat.ne_of_lt hlt]
  · simp [eq_comm]
  · rw [List.getElem?_append_right (Nat.le_of_lt hgt), List.getElem?_singleton,
      List.getElem?_eq_none (Nat.le_of_lt hgt), if_neg (by omega)]
    simp [Nat.ne_of_gt hgt]

theorem lookup_update :
    (Function.update turns n (past ++ [new]) m)[k]? = some turn ↔
      m = n ∧ (past[k]? = some turn ∨ k = past.length ∧ turn = new) ∨
        m ≠ n ∧ (turns m)[k]? = some turn := by
  by_cases hm : m = n
  · subst hm
    simp [lookup_concat]
  · simp [hm]

theorem lookup_set {α : Type} {l : List α} {x y : α} (h : (l.set n x)[m]? = some y) :
    m = n ∧ y = x ∨ m ≠ n ∧ l[m]? = some y := by
  by_cases hm : m = n
  · subst hm
    have hlt := (List.getElem?_eq_some_iff.mp h).1
    rw [List.length_set] at hlt
    rw [List.getElem?_set_self hlt] at h
    exact .inl ⟨rfl, (Option.some.inj h).symm⟩
  · rw [List.getElem?_set_ne (Ne.symm hm)] at h
    exact .inr ⟨hm, h⟩

variable {peer peer' : SocketAddr} {fate : Fate} {c : Nat}

theorem connected_taken (hlimited : fate.isLimited = false) :
    (Function.update turns n (turns n ++ [⟨peer, fate⟩]) m)[k]? = some ⟨peer', .connected c⟩ ↔
      (turns m)[k]? = some ⟨peer', .connected c⟩ := by
  have hfate : (⟨peer', .connected c⟩ : Turn) ≠ ⟨peer, fate⟩ := by
    rintro h
    obtain ⟨-, rfl⟩ := Turn.mk.inj h
    cases hlimited
  rw [lookup_update]
  by_cases hm : m = n <;> simp [hm, hfate]

theorem connected_answered (hturns : turns n = past ++ [⟨peer, .waiting⟩]) :
    (Function.update turns n (past ++ [⟨peer, fate⟩]) m)[k]? = some ⟨peer', .connected c⟩ ↔
      (turns m)[k]? = some ⟨peer', .connected c⟩ ∨
        m = n ∧ k = past.length ∧ peer' = peer ∧ fate = .connected c := by
  rw [lookup_update]
  by_cases hm : m = n
  · subst hm
    rw [hturns, lookup_concat]
    simp [eq_comm]
  · simp [hm]

theorem AcceptLoop.after_concat (hpast : ∀ turn ∈ past, turn.fate ≠ .waiting) {loop : AcceptLoop}
    (hloop : loop = .accepting ∧ fate ≠ .waiting ∨ loop = .limiting peer ∧ fate = .waiting) :
    loop.After (past ++ [⟨peer, fate⟩]) := by
  rcases hloop with ⟨rfl, hfate⟩ | ⟨rfl, rfl⟩
  · intro turn hturn
    rcases List.mem_append.mp hturn with hold | hnew
    · exact hpast turn hold
    · rwa [List.mem_singleton.mp hnew]
  · exact ⟨past, rfl, hpast⟩

end Lookup

namespace Ledger

variable {cfg : ServiceConfig} {lists : Lists} {cfgs : List TcpPassthroughConfig}
  {happenings : List Happening} {s s' : Service} {a : Happening} {turns : Nat → List Turn}

theorem length_taken (hs : Ledger cfg lists cfgs happenings s turns) (n : Nat) :
    (happenings.filterMap (Happening.acceptedBy n)).length = (turns n).length := by
  rw [← hs.taken n, List.length_map]

theorem frame (hs : Ledger cfg lists cfgs happenings s turns)
    (haccepted : ∀ n, a.acceptedBy n = none) (hlisteners : s'.listeners = s.listeners)
    (hreports : ∀ n, s'.reportsOf (.listener n) = s.reportsOf (.listener n))
    (hlength : s'.connections.length = s.connections.length)
    (hconnections : ∀ (c : Nat) (conn : PassthroughConnection), s.connections[c]? = some conn →
      ∃ phase, s'.connections[c]? = some { conn with phase := phase }) :
    Ledger cfg lists cfgs (happenings ++ [a]) s' turns where
  taken := by
    intro n
    rw [List.filterMap_append, List.filterMap_cons_none (haccepted n), List.filterMap_nil,
      List.append_nil, hs.taken n]
  reported := by
    intro n pcfg loop hget
    rw [hreports]
    exact hs.reported n pcfg loop (hlisteners ▸ hget)
  standing := fun n pcfg loop hget => hs.standing n pcfg loop (hlisteners ▸ hget)
  screened := fun n k turn hk => (hs.screened n k turn hk).snoc a
  limited := fun n k turn hk hlimited => (hs.limited n k turn hk hlimited).snoc a
  served := by
    intro n k peer c hk
    obtain ⟨conn, loop, hconn, hget, hpeer⟩ := hs.served n k peer c hk
    obtain ⟨phase, hconn'⟩ := hconnections c conn hconn
    exact ⟨_, loop, hconn', hlisteners ▸ hget, hpeer⟩
  once := fun c hc => hs.once c (hlength ▸ hc)

theorem moved (hs : Ledger cfg lists cfgs happenings s turns)
    (haccepted : ∀ n, a.acceptedBy n = none) {c : Nat} {conn : PassthroughConnection}
    (hget : s.connections[c]? = some conn) (phase : ConnectionPhase) (active : UInt64)
    (notices : List Notice) :
    Ledger cfg lists cfgs (happenings ++ [a])
      ((s.setConnection c { conn with phase := phase } active).report (.connection c) notices)
      turns := by
  refine hs.frame haccepted rfl (fun n => Service.reportsOf_report_ne _ _ _ _ (by simp))
    List.length_set fun d other hd => ?_
  by_cases hcd : c = d
  · subst hcd
    obtain rfl : conn = other := Option.some.inj (hget.symm.trans hd)
    exact ⟨phase, List.getElem?_set_self (List.getElem?_eq_some_iff.mp hget).1⟩
  · exact ⟨other.phase, (List.getElem?_set_ne hcd).trans hd⟩

/-! A turn of listener `n` changes its loop and no other. -/

section Turns

variable {n m k c : Nat} {pcfg : TcpPassthroughConfig} {old loop : AcceptLoop}
  {peer peer' : SocketAddr} {past : List Turn} {fate : Fate}

theorem served_set (hs : Ledger cfg lists cfgs happenings s turns)
    (hget : s.listeners[n]? = some ⟨pcfg, old⟩)
    (hk : (turns m)[k]? = some ⟨peer, .connected c⟩) :
    ∃ (conn : PassthroughConnection) (loop' : AcceptLoop), s.connections[c]? = some conn ∧
      (s.listeners.set n ⟨pcfg, loop⟩)[m]? = some ⟨conn.cfg, loop'⟩ ∧ conn.peer = peer := by
  obtain ⟨conn, loop', hconn, hlistener, hpeer⟩ := hs.served m k peer c hk
  by_cases hmn : m = n
  · subst hmn
    obtain ⟨rfl, rfl⟩ := PassthroughListener.mk.inj (Option.some.inj (hget.symm.trans hlistener))
    have hlt := (List.getElem?_eq_some_iff.mp hget).1
    exact ⟨conn, loop, hconn, List.getElem?_set_self hlt, hpeer⟩
  · refine ⟨conn, loop', hconn, ?_, hpeer⟩
    exact (List.getElem?_set_ne (Ne.symm hmn)).trans hlistener

theorem not_served (hs : Ledger cfg lists cfgs happenings s turns) :
    (turns m)[k]? ≠ some ⟨peer, .connected s.connections.length⟩ := by
  intro hk
  obtain ⟨conn, -, hconn, -⟩ := hs.served m k peer _ hk
  exact absurd (List.getElem?_eq_some_iff.mp hconn).1 (Nat.lt_irrefl _)

theorem once_answered (hs : Ledger cfg lists cfgs happenings s turns)
    (hturns : turns n = past ++ [⟨peer, .waiting⟩])
    (hnew : ∀ d, fate = .connected d → d = s.connections.length)
    (hc : c < s.connections.length ∨ fate = .connected c) :
    ∃! place : Nat × Nat, ∃ peer',
      (Function.update turns n (past ++ [⟨peer, fate⟩]) place.1)[place.2]? =
        some ⟨peer', .connected c⟩ := by
  simp only [connected_answered hturns]
  rcases hc with hearlier | hfate
  · have hne : fate ≠ .connected c := fun hfate => Nat.ne_of_lt hearlier (hnew c hfate)
    simpa [hne] using hs.once c hearlier
  · obtain rfl := hnew c hfate
    refine ⟨(n, past.length), ⟨peer, .inr ⟨rfl, rfl, rfl, hfate⟩⟩, ?_⟩
    rintro ⟨m, k⟩ ⟨peer', hk | ⟨rfl, rfl, -⟩⟩
    · exact absurd hk hs.not_served
    · rfl

theorem accepted (hs : Ledger cfg lists cfgs happenings s turns)
    (hrun : FreeRun (Service.step cfg) (.initial lists cfgs) happenings s)
    (hget : s.listeners[n]? = some ⟨pcfg, .accepting⟩)
    (hfits : fate.Fits cfg.geoip s.system.shared.lists peer.ip) (hlimited : fate.isLimited = false)
    (hloop : loop = .accepting ∧ fate ≠ .waiting ∨ loop = .limiting peer ∧ fate = .waiting) :
    Ledger cfg lists cfgs (happenings ++ [.accepted n peer])
      ((s.setLoop n pcfg loop).report (.listener n) (Turn.notices pcfg ⟨peer, fate⟩))
      (Function.update turns n (turns n ++ [⟨peer, fate⟩])) := by
  refine ⟨?_, ?_, ?_, ?_, ?_, ?_, ?_⟩
  · intro m
    rw [List.filterMap_append, ← hs.taken m]
    by_cases hm : m = n
    · subst hm
      simp [Happening.acceptedBy]
    · simp [Happening.acceptedBy, hm, Ne.symm hm]
  · intro m pcfg' loop' hm
    rcases lookup_set hm with ⟨rfl, hnew⟩ | ⟨hmn, hold⟩
    · obtain ⟨rfl, rfl⟩ := PassthroughListener.mk.inj hnew
      have hbefore : (s.setLoop m pcfg' loop').reportsOf (.listener m) =
          (turns m).flatMap (Turn.notices pcfg') := hs.reported m _ _ hget
      rw [Service.reportsOf_report_self, hbefore, Function.update_self, List.flatMap_append,
        List.flatMap_singleton]
    · rw [Service.reportsOf_report_ne _ _ _ _ (by simpa using hmn), Function.update_of_ne hmn]
      exact hs.reported m pcfg' loop' hold
  · intro m pcfg' loop' hm
    rcases lookup_set hm with ⟨rfl, hnew⟩ | ⟨hmn, hold⟩
    · obtain ⟨-, rfl⟩ := PassthroughListener.mk.inj hnew
      rw [Function.update_self]
      exact AcceptLoop.after_concat (hs.standing m _ _ hget) hloop
    · rw [Function.update_of_ne hmn]
      exact hs.standing m pcfg' loop' hold
  · intro m k turn hk
    rcases lookup_update.mp hk with ⟨rfl, hold | ⟨rfl, rfl⟩⟩ | ⟨-, hold⟩
    · exact (hs.screened _ k turn hold).snoc _
    · exact hrun.occurredAfter_last ⟨rfl, hs.length_taken m, hfits⟩
    · exact (hs.screened m k turn hold).snoc _
  · intro m k turn hk hlim
    rcases lookup_update.mp hk with ⟨rfl, hold | ⟨rfl, rfl⟩⟩ | ⟨-, hold⟩
    · exact (hs.limited _ k turn hold hlim).snoc _
    · rw [hlimited] at hlim
      cases hlim
    · exact (hs.limited m k turn hold hlim).snoc _
  · intro m k peer' c hk
    exact hs.served_set hget ((connected_taken hlimited).mp hk)
  · intro c hc
    simp only [connected_taken hlimited]
    exact hs.once c hc

theorem answered (hs : Ledger cfg lists cfgs happenings s turns)
    (hrun : FreeRun (Service.step cfg) (.initial lists cfgs) happenings s) {now : Nat}
    (hget : s.listeners[n]? = some ⟨pcfg, .limiting peer⟩)
    (hturns : turns n = past ++ [⟨peer, .waiting⟩]) (hpast : ∀ turn ∈ past, turn.fate ≠ .waiting)
    (rates : RateTable) {allowed : Bool}
    (hallowed : (checkAndRecord cfg.relay s.system.shared.rates peer.ip.toString now).1 = allowed)
    (hfate : fate = if allowed then .connected s.connections.length else .rateLimited) :
    Ledger cfg lists cfgs (happenings ++ [.limited n now])
      ((s.setRates rates).answered n pcfg peer now allowed)
      (Function.update turns n (past ++ [⟨peer, fate⟩])) := by
  have hlisteners : ((s.setRates rates).answered n pcfg peer now allowed).listeners =
      s.listeners.set n ⟨pcfg, .accepting⟩ := by
    cases allowed <;> rfl
  have hold : ∀ (k : Nat) (turn : Turn), past[k]? = some turn → (turns n)[k]? = some turn := by
    intro k turn hk
    rw [hturns]
    exact lookup_concat.mpr (.inl hk)
  have hwas : (turns n)[past.length]? = some ⟨peer, .waiting⟩ := by
    rw [hturns]
    exact lookup_concat.mpr (.inr ⟨rfl, rfl⟩)
  have hscreened := hs.screened n past.length _ hwas
  refine ⟨?_, ?_, ?_, ?_, ?_, ?_, ?_⟩
  · intro m
    rw [List.filterMap_append, ← hs.taken m]
    by_cases hm : m = n
    · subst hm
      simp [hturns, Happening.acceptedBy]
    · simp [Happening.acceptedBy, hm]
  · intro m pcfg' loop' hm
    rw [hlisteners] at hm
    rcases lookup_set hm with ⟨rfl, hnew⟩ | ⟨hmn, hother⟩
    · obtain ⟨rfl, rfl⟩ := PassthroughListener.mk.inj hnew
      have hbefore := hs.reported m _ _ hget
      rw [hturns, List.flatMap_append, List.flatMap_singleton] at hbefore
      rw [Function.update_self, List.flatMap_append, List.flatMap_singleton, hfate]
      cases allowed with
      | true => exact hbefore
      | false =>
          have hnow : ((s.setRates rates).answered m pcfg' peer now false).reportsOf (.listener m) =
              s.reportsOf (.listener m) ++ pcfg'.reportLimited peer :=
            Service.reportsOf_report_self _ _ _
          rw [hnow, hbefore]
          simp [Turn.notices]
    · rw [Service.reportsOf_answered _ _ _ _ _ _ (by simpa using hmn), Function.update_of_ne hmn]
      exact hs.reported m pcfg' loop' hother
  · intro m pcfg' loop' hm
    rw [hlisteners] at hm
    rcases lookup_set hm with ⟨rfl, hnew⟩ | ⟨hmn, hother⟩
    · obtain ⟨-, rfl⟩ := PassthroughListener.mk.inj hnew
      rw [Function.update_self]
      refine AcceptLoop.after_concat hpast (.inl ⟨rfl, ?_⟩)
      rw [hfate]
      cases allowed <;> simp
    · rw [Function.update_of_ne hmn]
      exact hs.standing m pcfg' loop' hother
  · intro m k turn hk
    rcases lookup_update.mp hk with ⟨rfl, hearlier | ⟨rfl, rfl⟩⟩ | ⟨-, hearlier⟩
    · exact (hs.screened m k turn (hold k turn hearlier)).snoc _
    · refine (hscreened.mono fun before t a ha => ⟨ha.1, ha.2.1, ?_⟩).snoc _
      rw [hfate]
      cases allowed <;> exact ha.2.2
    · exact (hs.screened m k turn hearlier).snoc _
  · intro m k turn hk hlimited
    rcases lookup_update.mp hk with ⟨rfl, hearlier | ⟨rfl, rfl⟩⟩ | ⟨-, hearlier⟩
    · exact (hs.limited m k turn (hold k turn hearlier) hlimited).snoc _
    · refine hrun.occurredAfter_last ⟨?_, now, allowed, rfl, hallowed, hfate⟩
      rw [hs.length_taken, hturns, List.length_append, List.length_singleton]
    · exact (hs.limited m k turn hearlier hlimited).snoc _
  · intro m k peer' c hk
    rw [hlisteners]
    rcases (connected_answered hturns).mp hk with hearlier | ⟨rfl, rfl, rfl, hnew⟩
    · obtain ⟨conn, loop', hconn, hlistener, hpeer⟩ := hs.served_set hget hearlier
      refine ⟨conn, loop', ?_, hlistener, hpeer⟩
      cases allowed with
      | false => exact hconn
      | true => exact (List.getElem?_append_left (List.getElem?_eq_some_iff.mp hconn).1).trans hconn
    · have hlt := (List.getElem?_eq_some_iff.mp hget).1
      cases allowed with
      | false =>
          rw [hfate] at hnew
          cases hnew
      | true =>
          rw [hfate] at hnew
          cases hnew
          refine ⟨⟨pcfg, peer', .spawned⟩, .accepting, List.getElem?_concat_length, ?_, rfl⟩
          exact List.getElem?_set_self hlt
  · intro c hc
    refine hs.once_answered hturns (fun d hd => ?_) ?_
    · rw [hfate] at hd
      cases allowed with
      | false => cases hd
      | true => exact (Fate.connected.inj hd).symm
    · cases allowed with
      | false => exact .inl hc
      | true =>
          change c < (s.connections ++ [_]).length at hc
          rw [List.length_append, List.length_singleton] at hc
          exact (Nat.lt_succ_iff_lt_or_eq.mp hc).imp_right fun heq => by rw [hfate, heq]; rfl

end Turns

theorem step (hs : Ledger cfg lists cfgs happenings s turns)
    (hrun : FreeRun (Service.step cfg) (.initial lists cfgs) happenings s)
    (hstep : s.step cfg a = some s') :
    ∃ turns', Ledger cfg lists cfgs (happenings ++ [a]) s' turns' := by
  cases Service.step_cases hstep with
  | handled hget hown =>
      refine ⟨turns, hs.frame (fun _ => rfl) (by simp) (fun n => ?_) (by simp) fun c conn hc => ?_⟩
      · exact Service.reportsOf_handled_ne _ _ _ _ _ _ _ (by simp)
      · exact ⟨conn.phase, by simpa using hc⟩
  | connected =>
      exact ⟨turns, hs.frame (fun _ => rfl) rfl (fun _ => rfl) rfl fun c conn hc => ⟨_, hc⟩⟩
  | aside =>
      exact ⟨turns, hs.frame (fun _ => rfl) rfl (fun _ => rfl) rfl fun c conn hc => ⟨_, hc⟩⟩
  | @screened n peer pcfg hget =>
      obtain ⟨fate, hfits, hlimited, hnotices, hloop⟩ :=
        pcfg.exists_fate s.system.shared.lists cfg.geoip peer
      rw [hnotices]
      exact ⟨_, hs.accepted hrun hget hfits hlimited hloop⟩
  | @answered n now peer pcfg hget =>
      have hstanding : (AcceptLoop.limiting peer).After (turns n) := hs.standing n _ _ hget
      obtain ⟨past, hturns, hpast⟩ := hstanding
      exact ⟨_, hs.answered hrun hget hturns hpast _ rfl rfl⟩
  | started hget => exact ⟨turns, hs.moved (fun _ => rfl) hget _ _ _⟩
  | finished hget => exact ⟨turns, hs.moved (fun _ => rfl) hget _ _ _⟩

theorem exists_ledger
    (hrun : FreeRun (Service.step cfg) (.initial lists cfgs) happenings s) :
    ∃ turns, Ledger cfg lists cfgs happenings s turns := by
  induction hrun with
  | nil =>
      refine ⟨fun _ => [], ?_, ?_, ?_, ?_, ?_, ?_, ?_⟩
      · exact fun _ => rfl
      · exact fun _ _ _ _ => rfl
      · intro n pcfg loop hget
        obtain ⟨cfg', -, heq⟩ := List.mem_map.mp (List.mem_of_getElem? hget)
        obtain ⟨-, rfl⟩ := PassthroughListener.mk.inj heq
        intro turn hturn
        cases hturn
      · intro n k turn hk
        cases hk
      · intro n k turn hk
        cases hk
      · intro n k peer c hk
        cases hk
      · intro c hc
        cases hc
  | snoc hinit _ hlast ih =>
      obtain ⟨turns, hturns⟩ := ih
      exact hturns.step hinit hlast

end Ledger

/-- In every run the peers that the accept loops took are accounted for: each has one turn, in
which it was refused by one of the three checks, waits for the rate limiter, or has one
connection. What a loop has reported is the audit entry of each of its refusals, with the
address of the peer and the loop's port. A connection's peer passed the deny list and country
filter that stood when it was taken, the audit log has one opening and one closing of it, and
the gauge has the number of those in between. -/
theorem passthrough_accounted (cfg : ServiceConfig) (lists : Lists)
    (cfgs : List TcpPassthroughConfig) (happenings : List Happening) (s : Service)
    (hrun : FreeRun (Service.step cfg) (Service.initial lists cfgs) happenings s) :
    (∃ turns, Ledger cfg lists cfgs happenings s turns) ∧
      happenings.countP Happening.isAccepted = s.dropped + s.waiting + s.connections.length ∧
      s.active = UInt64.ofNat (s.connections.countP PassthroughConnection.isForwarding) ∧
      ∀ (c : Nat) (conn : PassthroughConnection), s.connections[c]? = some conn →
        conn.Narrated (s.reportsOf (.connection c)) ∧
          Occurred (Service.step cfg) (Screens cfg conn.cfg conn.peer)
            (Service.initial lists cfgs) happenings := by
  have hs := Service.forwards_served hrun
  refine ⟨Ledger.exists_ledger hrun, hs.accounted, hs.gauge, fun c conn hget => ?_⟩
  exact ⟨hs.narrated c conn hget, hs.screened c conn hget⟩

def guardedForward : TcpPassthroughConfig := ⟨2222, "10.0.0.5", 22⟩

/-- A relay that denies 192.0.2.0/24. -/
def denyingLists : Lists := ⟨none, none, some [⟨0xC0000200#32, 0xFFFFFF00#32⟩]⟩

def openPassthrough : ServiceConfig := ⟨.unlimited "example.com", 0, ⟨none, id, []⟩⟩

/-- One peer is denied, one is served to its end, and one waits for the rate limiter. -/
def threePeers : List Happening :=
  [.accepted 0 ⟨documentationIp, 40000, 0⟩, .relay (.reloadDenylist []) ⟨0, 0, 0, 0⟩,
    .accepted 0 ⟨documentationIp, 40001, 0⟩, .limited 0 5, .started 0, .finished 0 10 20,
    .accepted 0 ⟨documentationIp, 40002, 0⟩]

theorem passthrough_accounted_threePeers :
    ∃ s turns, FreeRun (Service.step openPassthrough)
        (Service.initial denyingLists [guardedForward]) threePeers s ∧
      Ledger openPassthrough denyingLists [guardedForward] threePeers s turns ∧
      s.journal = [
        (.listener 0, .audit (.passthroughDenied "192.0.2.1:40000" 2222)),
        (.connection 0, .audit (.passthroughConnect "192.0.2.1:40001" 2222 "10.0.0.5:22")),
        (.connection 0,
          .audit (.passthroughDisconnect "192.0.2.1:40001" 2222 "10.0.0.5:22" 10 20))] ∧
      3 = s.dropped + s.waiting + s.connections.length := by
  have hexec : (exec (Service.step openPassthrough)
      (Service.initial denyingLists [guardedForward]) threePeers).map Service.journal = some [
        (.listener 0, .audit (.passthroughDenied "192.0.2.1:40000" 2222)),
        (.connection 0, .audit (.passthroughConnect "192.0.2.1:40001" 2222 "10.0.0.5:22")),
        (.connection 0,
          .audit (.passthroughDisconnect "192.0.2.1:40001" 2222 "10.0.0.5:22" 10 20))] := by
    decide +kernel
  obtain ⟨s, hrun, hjournal⟩ := exists_freeRun hexec
  obtain ⟨⟨turns, hturns⟩, hcount, -⟩ := passthrough_accounted _ _ _ _ _ hrun
  exact ⟨s, turns, hrun, hturns, hjournal, hcount⟩

end Seamless.Relay
