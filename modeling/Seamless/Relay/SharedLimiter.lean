import Seamless.Relay.Counters
import Seamless.Relay.Visibility

/-!
One rate limiter for registrations and passthrough connections: whoever asks, and in
whatever order they do, an address gets no more than the limit out of both together in a
window, and is turned away only when the window is full.
-/

namespace Seamless.Relay

open Seamless.Library
open Seamless.Library.NetAddr
open Seamless.Library.SlidingWindow
open Seamless.Library.TransitionSystem
open RateLimiter

theorem Handler.rates_step {cfg : Config} {i : MuxId} {sh sh' : Shared} {h h' : Handler}
    {input : Input} (hinput : ∀ now, input ≠ .instant now)
    (hstep : h.step cfg i sh input = some (h', sh')) : sh'.rates = sh.rates := by
  cases input with
  | instant now => exact absurd rfl (hinput now)
  | named random unixNow now =>
      simp only [Handler.step] at hstep
      split at hstep
      · obtain ⟨pc, -, heq⟩ := Option.map_eq_some_iff.mp hstep
        rw [← (Prod.mk.inj heq).2]
      · cases hstep
  | wrote fault =>
      simp only [Handler.step] at hstep
      split at hstep
      · cases hstep
        rfl
      · cases hstep
        rfl
      · rename_i endpoint hpc
        split at hstep
        · cases hstep
          rfl
        · cases hstep
          cases endpoint <;> rfl
      · cases hstep
  | _ =>
      simp only [Handler.step] at hstep
      repeat' split at hstep
      all_goals first
        | (cases hstep; done)
        | (cases hstep; rfl)

theorem Handler.step_instant {cfg : Config} {i : MuxId} {sh sh' : Shared} {h h' : Handler}
    {now : Nat} (hstep : h.step cfg i sh (.instant now) = some (h', sh')) :
    ∃ kind, h.pc = .rateLimiting kind ∧
      h' = h.goto (if (checkAndRecord cfg sh.rates h.clientIp now).1 then .perIpCheck kind
        else .refusing rateRefusal) ∧
      sh'.rates = (checkAndRecord cfg sh.rates h.clientIp now).2 := by
  simp only [Handler.step] at hstep
  split at hstep
  · rename_i kind hpc
    cases hstep
    exact ⟨kind, hpc, rfl, rfl⟩
  · cases hstep

/-- The call has not yet asked the rate limiter. -/
def Pc.beforeLimiter : Pc → Bool
  | .start | .awaitRegister | .rateLimiting _ => true
  | _ => false

/-- The rate limiter has let the call pass. -/
def Pc.pastLimiter : Pc → Bool
  | .start | .awaitRegister | .rateLimiting _ | .refusing _ => false
  | .returned (.error e) =>
      match e with
      | .bindFailed _ | .noFreePort | .announce _ _ => true
      | _ => false
  | _ => true

theorem pastLimiter_afterRegister (cfg : Config) (lists : Lists) (read : RegisterRead) :
    (afterRegister cfg lists read).pastLimiter = false := by
  cases read with
  | stream r =>
      simp only [afterRegister]
      split
      · rfl
      · split
        · rfl
        · split <;> rfl
      · rfl
  | _ => rfl

theorem stillPast {pc pc' : Pc} (hpast : pc'.pastLimiter = false ∨ pc.pastLimiter = true)
    (hbefore : pc.beforeLimiter = true ∨ pc'.beforeLimiter = false) :
    (pc'.pastLimiter = true → pc.pastLimiter = true) ∧
      (pc.beforeLimiter = false → pc'.beforeLimiter = false) := by
  constructor
  · intro h
    rcases hpast with hfalse | htrue
    · rw [hfalse] at h
      cases h
    · exact htrue
  · intro h
    rcases hbefore with htrue | hfalse
    · rw [htrue] at h
      cases h
    · exact hfalse

theorem beforeLimiter_exit (endpoint : Endpoint) : endpoint.exit.beforeLimiter = false := by
  cases endpoint <;> rfl

theorem Handler.pastLimiter_step {cfg : Config} {i : MuxId} {sh sh' : Shared} {h h' : Handler}
    {input : Input} (hinput : ∀ now, input ≠ .instant now)
    (hstep : h.step cfg i sh input = some (h', sh')) :
    (h'.pc.pastLimiter = true → h.pc.pastLimiter = true) ∧
      (h.pc.beforeLimiter = false → h'.pc.beforeLimiter = false) := by
  cases input with
  | instant now => exact absurd rfl (hinput now)
  | received read =>
      simp only [Handler.step] at hstep
      split at hstep
      · rename_i hpc
        cases hstep
        rw [hpc]
        exact stillPast (.inl (pastLimiter_afterRegister cfg sh.lists read)) (.inl rfl)
      · cases hstep
  | named random unixNow now =>
      simp only [Handler.step] at hstep
      split at hstep
      · rename_i subdomain hpc
        obtain ⟨pc, hnaming, heq⟩ := Option.map_eq_some_iff.mp hstep
        rw [← (Prod.mk.inj heq).1, hpc]
        refine ⟨fun _ => rfl, fun _ => ?_⟩
        unfold afterNaming at hnaming
        split at hnaming
        · split at hnaming <;> cases hnaming <;> rfl
        · split at hnaming <;> cases hnaming
          rfl
      · cases hstep
  | proceed =>
      simp only [Handler.step, afterPerIpCheck, afterGlobalCheck] at hstep
      repeat' split at hstep
      all_goals first
        | (cases hstep; done)
        | (cases hstep; rw [‹h.pc = _›]; exact stillPast (.inl rfl) (.inl rfl))
        | (cases hstep; rw [‹h.pc = _›]; exact stillPast (.inl rfl) (.inr rfl))
        | (cases hstep; rw [‹h.pc = _›]; exact stillPast (.inr rfl) (.inr rfl))
  | wrote fault =>
      simp only [Handler.step] at hstep
      split at hstep
      · rename_i reply hpc
        cases hstep
        rw [hpc]
        exact stillPast (.inl rfl) (.inr rfl)
      · rename_i reply hpc
        cases hstep
        rw [hpc]
        exact stillPast (.inl rfl) (.inr rfl)
      · rename_i endpoint hpc
        split at hstep <;> cases hstep <;> cases endpoint <;> rw [hpc] <;>
          exact stillPast (.inr rfl) (.inr rfl)
      · cases hstep
  | disconnected =>
      simp only [Handler.step] at hstep
      split at hstep
      · rename_i endpoint hpc
        split at hstep
        · cases hstep
          rw [hpc]
          exact stillPast (.inr rfl) (.inr (beforeLimiter_exit endpoint))
        · cases hstep
      · cases hstep
  | ticked fault =>
      simp only [Handler.step] at hstep
      split at hstep
      · rename_i endpoint hpc
        rcases hwrite : h.write fault .ping with ⟨e | _, w⟩
        · rw [hwrite] at hstep
          cases hstep
          rw [hpc]
          exact stillPast (.inr rfl) (.inr (beforeLimiter_exit endpoint))
        · have hw : w.pc = h.pc := by rw [← Handler.write_pc h fault .ping, hwrite]
          rw [hwrite] at hstep
          cases hstep
          rw [hw]
          exact ⟨id, id⟩
      · cases hstep
  | drained n =>
      simp only [Handler.step] at hstep
      split at hstep
      · rename_i endpoint hpc
        split at hstep
        · cases hstep
          exact ⟨id, id⟩
        · cases hstep
          rw [hpc]
          exact stillPast (.inr rfl) (.inr (beforeLimiter_exit endpoint))
      · cases hstep
  | _ =>
      simp only [Handler.step] at hstep
      repeat' split at hstep
      all_goals first
        | (cases hstep; done)
        | (cases hstep; rw [‹h.pc = _›]; exact stillPast (.inr rfl) (.inr rfl))

theorem countsOf_rateLimitHits {cfg : Config} {sh : Shared} {h : Handler} {l : CallLocals}
    {m : Moment} {input : Input} (hinput : ∀ now, input ≠ .instant now) :
    countsOf .rateLimitHits (h.report cfg sh l m input) = 0 := by
  cases input with
  | instant now => exact absurd rfl (hinput now)
  | received read =>
      simp only [Handler.report]
      split
      · unfold reportRegister
        repeat' split
        all_goals rfl
      · rfl
  | proceed =>
      simp only [Handler.report]
      repeat' split
      all_goals rfl
  | wrote fault =>
      simp only [Handler.report]
      repeat' split
      all_goals rfl
  | named random unixNow now =>
      simp only [Handler.report]
      repeat' split
      all_goals rfl
  | _ => rfl

theorem Pc.refusedWith_rate_iff (cfg : Config) {pc : Pc} :
    pc.refusedWith = some rateRefusal ↔ pc.counted cfg .rateLimitHits = true := by
  unfold Pc.counted
  cases pc.refusedWith with
  | none => simp
  | some reply => simp [countedRefusal]

theorem Handler.rateRefused_step {cfg : Config} {i : MuxId} {sh sh' : Shared} {h h' : Handler}
    {input : Input} (hinput : ∀ now, input ≠ .instant now)
    (hstep : h.step cfg i sh input = some (h', sh'))
    (hrefused : h'.pc.refusedWith = some rateRefusal) : h.pc.refusedWith = some rateRefusal := by
  have hcounted := counted_step (l := .start) (m := ⟨0, 0, 0, 0⟩) .rateLimitHits hstep
  rw [countsOf_rateLimitHits hinput, Nat.zero_add] at hcounted
  rw [Pc.refusedWith_rate_iff cfg] at hrefused ⊢
  rw [hrefused] at hcounted
  cases hpc : h.pc.counted cfg .rateLimitHits with
  | false => simp [hpc] at hcounted
  | true => rfl

instance (s : Service) (a : Happening) : Decidable (a.Chronological s) := by
  unfold Happening.Chronological
  split <;> infer_instance

namespace Service

def rates (s : Service) : RateTable := s.system.shared.rates

/-- What a step of the service can do to the rate limiter and its history. -/
inductive LimiterStep (cfg : Config) (s s' : Service) : Prop
  | same (hrates : s'.rates = s.rates) (hadmitted : s'.admitted = s.admitted)
      (hturned : s'.turnedAway = s.turnedAway)
  | admitted (who : Reporter) (call : RateCall)
      (hnow : ∀ ask ∈ s.admitted ++ s.turnedAway, ask.call.time ≤ call.time)
      (hanswer : (checkAndRecord cfg s.rates call.key call.time).1 = true)
      (hrates : s'.rates = (checkAndRecord cfg s.rates call.key call.time).2)
      (hadmitted : s'.admitted = s.admitted ++ [⟨who, call⟩])
      (hturned : s'.turnedAway = s.turnedAway)
  | refused (who : Reporter) (call : RateCall)
      (hnow : ∀ ask ∈ s.admitted ++ s.turnedAway, ask.call.time ≤ call.time)
      (hanswer : (checkAndRecord cfg s.rates call.key call.time).1 = false)
      (hrates : s'.rates = (checkAndRecord cfg s.rates call.key call.time).2)
      (hadmitted : s'.admitted = s.admitted)
      (hturned : s'.turnedAway = s.turnedAway ++ [⟨who, call⟩])

section Limiter

variable {cfg : ServiceConfig} {s s' : Service} {a : Happening}

theorem askedBy_of_ne {c : Config} {sh : Shared} {i : MuxId} {h : Handler} {input : Input}
    (hinput : ∀ now, input ≠ .instant now) (s : Service) : s.askedBy c sh i h input = s := by
  cases input with
  | instant now => exact absurd rfl (hinput now)
  | _ => rfl

theorem history_handled (cfg : ServiceConfig) (s : Service) (i : MuxId) (h : Handler) (m : Moment)
    (now : Nat) (system : System) :
    let asked := s.asked (.call i) ⟨h.clientIp, now⟩
      (checkAndRecord cfg.relay s.rates h.clientIp now).1
    (s.handled cfg i (.instant now) h m system).admitted = asked.admitted ∧
      (s.handled cfg i (.instant now) h m system).turnedAway = asked.turnedAway := by
  simp only [handled, askedBy, report]
  change (Service.asked _ _ _ (checkAndRecord cfg.relay s.rates h.clientIp now).1).admitted = _ ∧
    (Service.asked _ _ _ (checkAndRecord cfg.relay s.rates h.clientIp now).1).turnedAway = _
  cases (checkAndRecord cfg.relay s.rates h.clientIp now).1 <;> exact ⟨rfl, rfl⟩

theorem limiterStep (hstep : s.step cfg a = some s') (ha : a.Chronological s) :
    LimiterStep cfg.relay s s' := by
  cases step_cases hstep with
  | @handled i input m h h' sh' hget hown =>
      by_cases hinput : ∃ now, input = .instant now
      · obtain ⟨now, rfl⟩ := hinput
        obtain ⟨kind, -, -, hrates⟩ := Handler.step_instant hown
        have hnew : (s.handled cfg i (.instant now) h m
            { s.system with shared := sh', handlers := s.system.handlers.set i h' }).rates =
              (checkAndRecord cfg.relay s.rates h.clientIp now).2 := by
          rw [rates, system_handled]
          exact hrates
        obtain ⟨hadmitted, hturned⟩ := history_handled cfg s i h m now
          { s.system with shared := sh', handlers := s.system.handlers.set i h' }
        cases hanswer : (checkAndRecord cfg.relay s.rates h.clientIp now).1 with
        | true =>
            rw [hanswer] at hadmitted hturned
            exact .admitted (.call i) ⟨h.clientIp, now⟩ ha hanswer hnew hadmitted hturned
        | false =>
            rw [hanswer] at hadmitted hturned
            exact .refused (.call i) ⟨h.clientIp, now⟩ ha hanswer hnew hadmitted hturned
      · have hother : ∀ now, input ≠ .instant now := fun now heq => hinput ⟨now, heq⟩
        refine .same ?_ ?_ ?_
        · rw [rates, system_handled]
          exact Handler.rates_step hother hown
        · simp only [handled, askedBy_of_ne hother, report]
        · simp only [handled, askedBy_of_ne hother, report]
  | connected => exact .same rfl rfl rfl
  | aside haside => exact .same haside.rates rfl rfl
  | screened => exact .same rfl rfl rfl
  | @answered n now peer pcfg hget =>
      cases hanswer : (checkAndRecord cfg.relay s.rates peer.ip.toString now).1 with
      | true =>
          have hallowed : (checkAndRecord cfg.relay s.system.shared.rates peer.ip.toString now).1 =
              true := hanswer
          rw [hallowed]
          exact .admitted _ ⟨peer.ip.toString, now⟩ ha hanswer rfl rfl rfl
      | false =>
          have hrefused : (checkAndRecord cfg.relay s.system.shared.rates peer.ip.toString now).1 =
              false := hanswer
          rw [hrefused]
          exact .refused _ ⟨peer.ip.toString, now⟩ ha hanswer rfl rfl rfl
  | started => exact .same rfl rfl rfl
  | finished => exact .same rfl rfl rfl

/-- The history of the limiter as that of calls of one party: those that were admitted are
those that it allowed, and whoever was turned away had found the window full. -/
structure Limited (cfg : Config) (s : Service) (calls : List RateCall) : Prop where
  chronological : SlidingWindow.Chronological calls
  known : ∀ c ∈ calls, ∃ ask ∈ s.admitted ++ s.turnedAway, ask.call = c
  admitted : s.admitted.map Ask.call = allowedCalls cfg calls
  table : s.rates = RateLimiter.table cfg calls
  full : ∀ ask ∈ s.turnedAway, cfg.rateLimit.toNat ≤
    (s.admitted.filter fun a => a.call.key = ask.call.key ∧ a.call.time ≤ ask.call.time ∧
      ask.call.time - a.call.time < cfg.rateWindow).length

theorem length_filter_map_call (admitted : List Ask) (p : RateCall → Bool) :
    (admitted.filter fun a => p a.call).length = ((admitted.map Ask.call).filter p).length := by
  rw [List.filter_map, List.length_map]
  rfl

theorem chronological_snoc {calls : List RateCall} {call : RateCall}
    (h : SlidingWindow.Chronological calls) (hcall : ∀ c ∈ calls, c.time ≤ call.time) :
    SlidingWindow.Chronological (calls ++ [call]) := by
  refine List.pairwise_append.mpr ⟨h, List.pairwise_singleton _ _, ?_⟩
  intro c hc d hd
  rw [List.mem_singleton.mp hd]
  exact hcall c hc

theorem Limited.time_le {c : Config} {calls : List RateCall} (hs : s.Limited c calls)
    {call : RateCall} (hnow : ∀ ask ∈ s.admitted ++ s.turnedAway, ask.call.time ≤ call.time) :
    ∀ d ∈ calls, d.time ≤ call.time := by
  intro d hd
  obtain ⟨ask, hask, rfl⟩ := hs.known d hd
  exact hnow ask hask

theorem Limited.answer {c : Config} {calls : List RateCall} (hs : s.Limited c calls)
    (call : RateCall) :
    (checkAndRecord c s.rates call.key call.time).1 = allows c calls call := by
  rw [hs.table, allows]

theorem Limited.table_snoc {c : Config} {calls : List RateCall} (hs : s.Limited c calls)
    (call : RateCall) : (checkAndRecord c s.rates call.key call.time).2 =
      RateLimiter.table c (calls ++ [call]) := by
  rw [hs.table, RateLimiter.table, RateLimiter.table, after_snoc]
  rfl

theorem allowedCalls_snoc (c : Config) (calls : List RateCall) (call : RateCall) :
    allowedCalls c (calls ++ [call]) =
      if allows c calls call then allowedCalls c calls ++ [call] else allowedCalls c calls := by
  rw [allowedCalls, after_snoc]
  rfl

theorem Limited.step {c : Config} {calls : List RateCall} (hlimit : 0 < c.rateLimit)
    (hs : s.Limited c calls) (hstep : LimiterStep c s s') : ∃ calls', s'.Limited c calls' := by
  cases hstep with
  | same hrates hadmitted hturned =>
      refine ⟨calls, hs.chronological, ?_, ?_, ?_, ?_⟩
      · rw [hadmitted, hturned]
        exact hs.known
      · rw [hadmitted]
        exact hs.admitted
      · rw [hrates]
        exact hs.table
      · rw [hadmitted, hturned]
        exact hs.full
  | admitted who call hnow hanswer hrates hadmitted hturned =>
      refine ⟨calls ++ [call], chronological_snoc hs.chronological (hs.time_le hnow), ?_, ?_, ?_, ?_⟩
      · intro d hd
        rw [hadmitted, hturned]
        rcases List.mem_append.mp hd with hd | hd
        · obtain ⟨ask, hask, rfl⟩ := hs.known d hd
          refine ⟨ask, ?_, rfl⟩
          rcases List.mem_append.mp hask with hask | hask <;> simp [hask]
        · exact ⟨⟨who, call⟩, by simp, (List.mem_singleton.mp hd).symm⟩
      · rw [hs.answer] at hanswer
        rw [hadmitted, List.map_append, hs.admitted, allowedCalls_snoc, if_pos hanswer]
        rfl
      · rw [hrates, hs.table_snoc]
      · intro ask hask
        rw [hturned] at hask
        rw [hadmitted, List.filter_append, List.length_append]
        exact (hs.full ask hask).trans (Nat.le_add_right _ _)
  | refused who call hnow hanswer hrates hadmitted hturned =>
      have hchronological := chronological_snoc hs.chronological (hs.time_le hnow)
      rw [hs.answer] at hanswer
      refine ⟨calls ++ [call], hchronological, ?_, ?_, ?_, ?_⟩
      · intro d hd
        rw [hadmitted, hturned]
        rcases List.mem_append.mp hd with hd | hd
        · obtain ⟨ask, hask, rfl⟩ := hs.known d hd
          refine ⟨ask, ?_, rfl⟩
          rcases List.mem_append.mp hask with hask | hask <;> simp [hask]
        · exact ⟨⟨who, call⟩, by simp, (List.mem_singleton.mp hd).symm⟩
      · rw [hadmitted, hs.admitted, allowedCalls_snoc, if_neg (by simp [hanswer])]
      · rw [hrates, hs.table_snoc]
      · intro ask hask
        rw [hturned] at hask
        rw [hadmitted]
        rcases List.mem_append.mp hask with hask | hask
        · exact hs.full ask hask
        · obtain rfl := List.mem_singleton.mp hask
          rw [allows_eq_grants hlimit hchronological, grants, decide_eq_false_iff_not,
            Nat.not_lt, ← hs.admitted, recent, ← length_filter_map_call] at hanswer
          refine hanswer.trans (Nat.le_of_eq ?_)
          congr 1
          apply List.filter_congr
          intro a ha
          have htime := hnow a (List.mem_append_left _ ha)
          simp [htime]

end Limiter

/-! ### Who was admitted -/

/-- Whoever is in the history has been there when the limiter was asked. -/
def HasAsked (s : Service) : Reporter → Prop
  | .call i => ∃ h, s.system.handlers[i]? = some h ∧ h.pc.beforeLimiter = false
  | .connection c => c < s.connections.length
  | .listener _ => False

def Asked (asks : List Ask) (who : Reporter) (key : String) : Prop :=
  ∃ ask ∈ asks, ask.who = who ∧ ask.call.key = key

/-- The history of the limiter and those that it let pass or turned away. -/
structure Named (s : Service) : Prop where
  calls : ∀ i h, s.system.handlers[i]? = some h → h.pc.pastLimiter = true →
    Asked s.admitted (.call i) h.clientIp
  refused : ∀ i h, s.system.handlers[i]? = some h → h.pc.refusedWith = some rateRefusal →
    Asked s.turnedAway (.call i) h.clientIp
  connections : ∀ c conn, s.connections[c]? = some conn →
    Asked s.admitted (.connection c) conn.peer.ip.toString
  asked : ∀ ask ∈ s.admitted, s.HasAsked ask.who
  nodup : (s.admitted.map Ask.who).Nodup

theorem Asked.append_left {asks : List Ask} {who : Reporter} {key : String}
    (h : Asked asks who key) (new : List Ask) : Asked (asks ++ new) who key := by
  obtain ⟨ask, hask, hwho⟩ := h
  exact ⟨ask, List.mem_append_left _ hask, hwho⟩

theorem Asked.append_right {new : List Ask} {who : Reporter} {key : String}
    (h : Asked new who key) (asks : List Ask) : Asked (asks ++ new) who key := by
  obtain ⟨ask, hask, hwho⟩ := h
  exact ⟨ask, List.mem_append_right _ hask, hwho⟩

theorem asked_singleton (who : Reporter) (call : RateCall) : Asked [⟨who, call⟩] who call.key :=
  ⟨_, List.mem_singleton_self _, rfl, rfl⟩

theorem Named.extend {s s' : Service} (hs : s.Named) (new gone : List Ask)
    (hadmitted : s'.admitted = s.admitted ++ new) (hturned : s'.turnedAway = s.turnedAway ++ gone)
    (hcalls : ∀ (i : MuxId) (h' : Handler), s'.system.handlers[i]? = some h' →
      h'.pc.pastLimiter = true → Asked new (.call i) h'.clientIp ∨
        ∃ h : Handler, s.system.handlers[i]? = some h ∧ h.clientIp = h'.clientIp ∧
          h.pc.pastLimiter = true)
    (hrefused : ∀ (i : MuxId) (h' : Handler), s'.system.handlers[i]? = some h' →
      h'.pc.refusedWith = some rateRefusal → Asked gone (.call i) h'.clientIp ∨
        ∃ h : Handler, s.system.handlers[i]? = some h ∧ h.clientIp = h'.clientIp ∧
          h.pc.refusedWith = some rateRefusal)
    (hconnections : ∀ (c : Nat) (conn' : PassthroughConnection), s'.connections[c]? = some conn' →
      Asked new (.connection c) conn'.peer.ip.toString ∨
        ∃ conn : PassthroughConnection, s.connections[c]? = some conn ∧ conn.peer = conn'.peer)
    (hasked : ∀ who, s.HasAsked who → s'.HasAsked who)
    (hnew : ∀ ask ∈ new, s'.HasAsked ask.who ∧ ¬ s.HasAsked ask.who)
    (hnodup : (new.map Ask.who).Nodup) : s'.Named where
  calls := by
    intro i h' hget hpast
    rw [hadmitted]
    rcases hcalls i h' hget hpast with hown | ⟨h, hold, hip, hpast⟩
    · exact hown.append_right _
    · rw [← hip]
      exact (hs.calls i h hold hpast).append_left _
  refused := by
    intro i h' hget hrefusal
    rw [hturned]
    rcases hrefused i h' hget hrefusal with hown | ⟨h, hold, hip, hrefusal⟩
    · exact hown.append_right _
    · rw [← hip]
      exact (hs.refused i h hold hrefusal).append_left _
  connections := by
    intro c conn' hget
    rw [hadmitted]
    rcases hconnections c conn' hget with hown | ⟨conn, hold, hpeer⟩
    · exact hown.append_right _
    · rw [← hpeer]
      exact (hs.connections c conn hold).append_left _
  asked := by
    intro ask hask
    rw [hadmitted] at hask
    rcases List.mem_append.mp hask with hask | hask
    · exact hasked _ (hs.asked ask hask)
    · exact (hnew ask hask).1
  nodup := by
    rw [hadmitted, List.map_append, List.nodup_append]
    refine ⟨hs.nodup, hnodup, ?_⟩
    intro who hwho who' hwho'
    obtain ⟨ask, hask, rfl⟩ := List.mem_map.mp hwho
    obtain ⟨ask', hask', rfl⟩ := List.mem_map.mp hwho'
    intro heq
    exact (hnew ask' hask').2 (heq ▸ hs.asked ask hask)

section Naming

variable {cfg : ServiceConfig} {s s' : Service} {a : Happening}

theorem hasAsked_set {i : MuxId} {h h' : Handler} {who : Reporter}
    (hget : s.system.handlers[i]? = some h)
    (hhandlers : s'.system.handlers = s.system.handlers.set i h')
    (hconnections : s'.connections = s.connections)
    (hbefore : h.pc.beforeLimiter = false → h'.pc.beforeLimiter = false)
    (hasked : s.HasAsked who) : s'.HasAsked who := by
  cases who with
  | call j =>
      obtain ⟨g, hg, hpast⟩ := hasked
      have hlt : i < s.system.handlers.length := (List.getElem?_eq_some_iff.mp hget).1
      by_cases hji : i = j
      · subst hji
        obtain rfl := Option.some.inj (hget.symm.trans hg)
        exact ⟨h', by rw [hhandlers, List.getElem?_set_self hlt], hbefore hpast⟩
      · exact ⟨g, by rw [hhandlers, List.getElem?_set_ne hji, hg], hpast⟩
  | connection c =>
      change c < s'.connections.length
      rw [hconnections]
      exact hasked
  | listener n => exact hasked

theorem hasAsked_of_frame {who : Reporter}
    (hhandlers : ∀ (i : MuxId) (h : Handler), s.system.handlers[i]? = some h → s'.system.handlers[i]? = some h)
    (hconnections : s.connections.length ≤ s'.connections.length) (hasked : s.HasAsked who) :
    s'.HasAsked who := by
  cases who with
  | call j =>
      obtain ⟨g, hg, hpast⟩ := hasked
      exact ⟨g, hhandlers j g hg, hpast⟩
  | connection c => exact Nat.lt_of_lt_of_le hasked hconnections
  | listener n => exact hasked

theorem Named.frame (hs : s.Named) (hadmitted : s'.admitted = s.admitted)
    (hturned : s'.turnedAway = s.turnedAway)
    (hhandlers : s'.system.handlers = s.system.handlers)
    (hconnections : s'.connections.map PassthroughConnection.peer =
      s.connections.map PassthroughConnection.peer) : s'.Named := by
  have hlength : s'.connections.length = s.connections.length := by
    simpa using congrArg List.length hconnections
  have hcalls : ∀ (i : MuxId) (h' : Handler), s'.system.handlers[i]? = some h' →
      s.system.handlers[i]? = some h' := fun i h' hget => hhandlers ▸ hget
  refine hs.extend [] [] (by simpa using hadmitted) (by simpa using hturned) ?_ ?_ ?_ ?_ (by simp)
    (by simp)
  · exact fun i h' hget hpast => .inr ⟨h', hcalls i h' hget, rfl, hpast⟩
  · exact fun i h' hget hrefused => .inr ⟨h', hcalls i h' hget, rfl, hrefused⟩
  · intro c conn' hget
    have hpeer : (s.connections.map PassthroughConnection.peer)[c]? = some conn'.peer := by
      rw [← hconnections, List.getElem?_map, hget]
      rfl
    rw [List.getElem?_map, Option.map_eq_some_iff] at hpeer
    exact .inr hpeer
  · intro who
    refine hasAsked_of_frame ?_ (Nat.le_of_eq hlength.symm)
    intro i h hget
    rwa [hhandlers]

theorem map_peer_set {connections : List PassthroughConnection} {c : Nat}
    {conn conn' : PassthroughConnection} (hget : connections[c]? = some conn)
    (hpeer : conn'.peer = conn.peer) :
    (connections.set c conn').map PassthroughConnection.peer =
      connections.map PassthroughConnection.peer := by
  have hlt : c < connections.length := (List.getElem?_eq_some_iff.mp hget).1
  apply List.ext_getElem?
  intro d
  rw [List.getElem?_map, List.getElem?_map]
  by_cases hcd : c = d
  · subst hcd
    rw [List.getElem?_set_self hlt, hget, Option.map_some, Option.map_some, hpeer]
  · rw [List.getElem?_set_ne hcd]

theorem Named.handled (hs : s.Named) {i : MuxId} {input : Input} {m : Moment} {h h' : Handler}
    {sh' : Shared} (hget : s.system.handlers[i]? = some h)
    (hstep : h.step cfg.relay i s.system.shared input = some (h', sh')) :
    (s.handled cfg i input h m
      { s.system with shared := sh', handlers := s.system.handlers.set i h' }).Named := by
  generalize hsystem : ({ s.system with
    shared := sh', handlers := s.system.handlers.set i h' } : System) = system
  generalize hs' : s.handled cfg i input h m system = s'
  have hhandlers : s'.system.handlers = s.system.handlers.set i h' := by
    rw [← hs', system_handled, ← hsystem]
  have hconnections : s'.connections = s.connections := by
    rw [← hs', connections_handled]
  have hip : h.clientIp = h'.clientIp := (Handler.step_cases hstep).clientIp.symm
  have hlt : i < s.system.handlers.length := (List.getElem?_eq_some_iff.mp hget).1
  have hold : ∀ (c : Nat) (conn' : PassthroughConnection), s'.connections[c]? = some conn' →
      ∃ conn : PassthroughConnection, s.connections[c]? = some conn ∧ conn.peer = conn'.peer :=
    fun c conn' hc => ⟨conn', hconnections ▸ hc, rfl⟩
  by_cases hinput : ∃ now, input = .instant now
  · obtain ⟨now, rfl⟩ := hinput
    obtain ⟨kind, hpc, hh', -⟩ := Handler.step_instant hstep
    obtain ⟨hadmitted, hturned⟩ := history_handled cfg s i h m now system
    rw [hs'] at hadmitted hturned
    have hfresh : ¬ s.HasAsked (.call i) := by
      rintro ⟨g, hg, hpast⟩
      obtain rfl := Option.some.inj (hget.symm.trans hg)
      simp [hpc, Pc.beforeLimiter] at hpast
    have hbefore : h'.pc.beforeLimiter = false := by
      rw [hh', Handler.goto_pc]
      split <;> rfl
    have hasked : ∀ who, s.HasAsked who → s'.HasAsked who :=
      fun who => hasAsked_set hget hhandlers hconnections fun _ => hbefore
    have hdone : s'.HasAsked (.call i) :=
      ⟨h', by rw [hhandlers, List.getElem?_set_self hlt], hbefore⟩
    have hown : Asked [⟨.call i, ⟨h.clientIp, now⟩⟩] (.call i) h'.clientIp :=
      hip ▸ asked_singleton (.call i) ⟨h.clientIp, now⟩
    cases hanswer : (checkAndRecord cfg.relay s.rates h.clientIp now).1 with
    | true =>
        rw [hanswer] at hadmitted hturned
        have hpc' : h'.pc = .perIpCheck kind := by
          rw [hh', Handler.goto_pc]
          exact if_pos hanswer
        have hturned : s'.turnedAway = s.turnedAway := hturned
        refine hs.extend [⟨.call i, ⟨h.clientIp, now⟩⟩] [] hadmitted (by simpa using hturned)
          ?_ ?_ (fun c conn' hc => .inr (hold c conn' hc)) hasked (by simp [hdone, hfresh])
          (List.nodup_singleton _)
        · intro j g hj hpast
          rcases getElem?_set_cases hget (hhandlers ▸ hj) with ⟨rfl, rfl⟩ | ⟨-, hj⟩
          · exact .inl hown
          · exact .inr ⟨g, hj, rfl, hpast⟩
        · intro j g hj hrefused
          rcases getElem?_set_cases hget (hhandlers ▸ hj) with ⟨rfl, rfl⟩ | ⟨-, hj⟩
          · rw [hpc'] at hrefused
            cases hrefused
          · exact .inr ⟨g, hj, rfl, hrefused⟩
    | false =>
        rw [hanswer] at hadmitted hturned
        have hpc' : h'.pc = .refusing rateRefusal := by
          rw [hh', Handler.goto_pc]
          exact if_neg (by rw [← rates, hanswer]; simp)
        have hadmitted : s'.admitted = s.admitted := hadmitted
        refine hs.extend [] [⟨.call i, ⟨h.clientIp, now⟩⟩] (by simpa using hadmitted) hturned
          ?_ ?_ (fun c conn' hc => .inr (hold c conn' hc)) hasked (by simp) (by simp)
        · intro j g hj hpast
          rcases getElem?_set_cases hget (hhandlers ▸ hj) with ⟨rfl, rfl⟩ | ⟨-, hj⟩
          · rw [hpc'] at hpast
            cases hpast
          · exact .inr ⟨g, hj, rfl, hpast⟩
        · intro j g hj hrefused
          rcases getElem?_set_cases hget (hhandlers ▸ hj) with ⟨rfl, rfl⟩ | ⟨-, hj⟩
          · exact .inl hown
          · exact .inr ⟨g, hj, rfl, hrefused⟩
  · have hother : ∀ now, input ≠ .instant now := fun now heq => hinput ⟨now, heq⟩
    obtain ⟨hpassed, hbefore⟩ := Handler.pastLimiter_step hother hstep
    have hadmitted : s'.admitted = s.admitted := by
      rw [← hs']
      simp only [Service.handled, askedBy_of_ne hother, report]
    have hturned : s'.turnedAway = s.turnedAway := by
      rw [← hs']
      simp only [Service.handled, askedBy_of_ne hother, report]
    refine hs.extend [] [] (by simpa using hadmitted) (by simpa using hturned) ?_ ?_
      (fun c conn' hc => .inr (hold c conn' hc))
      (fun who => hasAsked_set hget hhandlers hconnections hbefore) (by simp) (by simp)
    · intro j g hj hpast
      rcases getElem?_set_cases hget (hhandlers ▸ hj) with ⟨rfl, rfl⟩ | ⟨-, hj⟩
      · exact .inr ⟨h, hget, hip, hpassed hpast⟩
      · exact .inr ⟨g, hj, rfl, hpast⟩
    · intro j g hj hrefused
      rcases getElem?_set_cases hget (hhandlers ▸ hj) with ⟨rfl, rfl⟩ | ⟨-, hj⟩
      · exact .inr ⟨h, hget, hip, Handler.rateRefused_step hother hstep hrefused⟩
      · exact .inr ⟨g, hj, rfl, hrefused⟩

theorem Named.answered (hs : s.Named) (n : Nat) (pcfg : TcpPassthroughConfig) (peer : SocketAddr)
    (now : Nat) (rates : RateTable) (allowed : Bool) :
    ((s.setRates rates).answered n pcfg peer now allowed).Named := by
  cases allowed with
  | false =>
      refine hs.extend [] [⟨.listener n, ⟨peer.ip.toString, now⟩⟩] (List.append_nil _).symm rfl
        (fun i h hget hpast => .inr ⟨h, hget, rfl, hpast⟩)
        (fun i h hget hrefused => .inr ⟨h, hget, rfl, hrefused⟩)
        (fun c conn hget => .inr ⟨conn, hget, rfl⟩) (fun who hasked => ?_) (by simp) (by simp)
      exact hasAsked_of_frame (s := s) (fun i h hget => hget) (Nat.le_refl _) hasked
  | true =>
      have hlength : ((s.setRates rates).answered n pcfg peer now true).connections =
          s.connections ++ [⟨pcfg, peer, .spawned⟩] := rfl
      refine hs.extend [⟨.connection s.connections.length, ⟨peer.ip.toString, now⟩⟩] [] rfl
        (List.append_nil _).symm (fun i h hget hpast => .inr ⟨h, hget, rfl, hpast⟩)
        (fun i h hget hrefused => .inr ⟨h, hget, rfl, hrefused⟩) ?_ (fun who hasked => ?_) ?_
        (List.nodup_singleton _)
      · intro c conn hget
        rw [hlength] at hget
        rcases Nat.lt_trichotomy c s.connections.length with hlt | rfl | hgt
        · rw [List.getElem?_append_left hlt] at hget
          exact .inr ⟨conn, hget, rfl⟩
        · rw [List.getElem?_concat_length] at hget
          obtain rfl := Option.some.inj hget
          exact .inl (asked_singleton _ ⟨peer.ip.toString, now⟩)
        · rw [List.getElem?_eq_none (by rw [List.length_append]; exact hgt)] at hget
          cases hget
      · refine hasAsked_of_frame (s := s) (fun i h hget => hget) ?_ hasked
        rw [hlength, List.length_append]
        exact Nat.le_add_right _ _
      · intro ask hask
        obtain rfl := List.mem_singleton.mp hask
        refine ⟨?_, Nat.lt_irrefl _⟩
        change s.connections.length <
          ((s.setRates rates).answered n pcfg peer now true).connections.length
        rw [hlength, List.length_append]
        exact Nat.lt_succ_self _

theorem Named.step (hs : s.Named) (hstep : s.step cfg a = some s') : s'.Named := by
  cases step_cases hstep with
  | handled hget hown => exact hs.handled hget hown
  | @connected client =>
      refine hs.extend [] [] (List.append_nil _).symm (List.append_nil _).symm ?_ ?_
        (fun c conn hget => .inr ⟨conn, hget, rfl⟩) (fun who hasked => ?_) (by simp) (by simp)
      · intro i h hget hpast
        rcases getElem?_concat_cases hget with hget | rfl
        · exact .inr ⟨h, hget, rfl, hpast⟩
        · cases hpast
      · intro i h hget hrefused
        rcases getElem?_concat_cases hget with hget | rfl
        · exact .inr ⟨h, hget, rfl, hrefused⟩
        · cases hrefused
      · refine hasAsked_of_frame (s := s) (fun i h hget => ?_) (Nat.le_refl _) hasked
        exact (List.getElem?_append_left (List.getElem?_eq_some_iff.mp hget).1).trans hget
  | aside haside => exact hs.frame rfl rfl haside.handlers rfl
  | screened => exact hs.frame rfl rfl rfl rfl
  | @answered n now peer pcfg => exact hs.answered n pcfg peer now _ _
  | started hget => exact hs.frame rfl rfl rfl (map_peer_set hget rfl)
  | finished hget => exact hs.frame rfl rfl rfl (map_peer_set hget rfl)

end Naming

theorem limited_served {cfg : ServiceConfig} {lists : Lists} {cfgs : List TcpPassthroughConfig}
    {happenings : List Happening} {s : Service} (hlimit : 0 < cfg.relay.rateLimit)
    (hrun : Served cfg Happening.Chronological lists cfgs happenings s) :
    ∃ calls, s.Limited cfg.relay calls := by
  refine hrun.invariant (I := fun s => ∃ calls, s.Limited cfg.relay calls) ?_ ?_
  · refine ⟨[], List.Pairwise.nil, ?_, rfl, rfl, ?_⟩
    · intro c hc
      cases hc
    · intro ask hask
      cases hask
  · rintro t a u ⟨calls, hcalls⟩ hguard hstep
    exact hcalls.step hlimit (limiterStep hstep hguard)

theorem named_served {cfg : ServiceConfig} {guard : Service → Happening → Prop} {lists : Lists}
    {cfgs : List TcpPassthroughConfig} {happenings : List Happening} {s : Service}
    (hrun : Served cfg guard lists cfgs happenings s) : s.Named := by
  refine hrun.invariant ⟨?_, ?_, ?_, ?_, List.nodup_nil⟩ fun t a u hs _ hstep => hs.step hstep
  · intro i h hget
    simp [initial, System.initial] at hget
  · intro i h hget
    simp [initial, System.initial] at hget
  · intro c conn hget
    simp [initial] at hget
  · intro ask hask
    cases hask

end Service

/-- Registrations and passthrough connections draw on one quota. In every run, for every
address and window, no more than the limit of them pass; whoever was turned away had found
the window full; nobody passes the limiter unasked or is counted twice; and the calls and
connections that were turned away are those that were told so or reported. -/
theorem shared_rate_limit (cfg : ServiceConfig) (lists : Lists) (cfgs : List TcpPassthroughConfig)
    (happenings : List Happening) (s : Service) (hlimit : 0 < cfg.relay.rateLimit)
    (hrun : Served cfg Happening.Chronological lists cfgs happenings s) :
    (∀ key start, (within key start (start + cfg.relay.rateWindow)
        (s.admitted.map Ask.call)).length ≤ cfg.relay.rateLimit.toNat) ∧
      (∀ ask ∈ s.turnedAway, cfg.relay.rateLimit.toNat ≤
        (s.admitted.filter fun a => a.call.key = ask.call.key ∧ a.call.time ≤ ask.call.time ∧
          ask.call.time - a.call.time < cfg.relay.rateWindow).length) ∧
      (s.admitted.map Ask.who).Nodup ∧
      (∀ i h, s.system.handlers[i]? = some h → h.pc.pastLimiter = true →
        Service.Asked s.admitted (.call i) h.clientIp) ∧
      (∀ c conn, s.connections[c]? = some conn →
        Service.Asked s.admitted (.connection c) conn.peer.ip.toString) ∧
      (∀ i h, s.system.handlers[i]? = some h → h.pc.refusedWith = some rateRefusal →
        Service.Asked s.turnedAway (.call i) h.clientIp) ∧
      s.TellsLimited := by
  obtain ⟨calls, hcalls⟩ := Service.limited_served hlimit hrun
  have hnamed := Service.named_served hrun
  refine ⟨?_, hcalls.full, hnamed.nodup, hnamed.calls, hnamed.connections, hnamed.refused,
    Service.tellsLimited_served hrun⟩
  intro key start
  rw [hcalls.admitted, allowedCalls_eq_granted hlimit hcalls.chronological]
  exact length_within_granted_le hcalls.chronological key start

/-- A call uses the quota of its address up; a passthrough connection from there is turned
away, and one that comes when the window has passed is let in. -/
def quotaUsedUp : List Happening :=
  (knocking 0 (some "secret") ++ [Label.handler 0 (.instant 5)]).map (.relay · ⟨0, 7, 0, 0⟩) ++
    [.accepted 0 ⟨documentationIp, 40000, 0⟩, .limited 0 9,
      .accepted 0 ⟨documentationIp, 40001, 0⟩, .limited 0 60000000005]

theorem shared_rate_limit_usedUp :
    ∃ s, Served strictService Happening.Chronological tokenLists [sshForward] quotaUsedUp s ∧
      s.admitted = [⟨.call 0, ⟨"192.0.2.1", 5⟩⟩, ⟨.connection 0, ⟨"192.0.2.1", 60000000005⟩⟩] ∧
      s.turnedAway = [⟨.listener 0, ⟨"192.0.2.1", 9⟩⟩] ∧
      (∀ key start, (within key start (start + 60000000000)
        (s.admitted.map Ask.call)).length ≤ 1) := by
  have hexec : (execGuarded (Service.step strictService) Happening.Chronological
      (Service.initial tokenLists [sshForward]) quotaUsedUp).map
        (fun s => (s.admitted, s.turnedAway)) =
      some ([⟨.call 0, ⟨"192.0.2.1", 5⟩⟩, ⟨.connection 0, ⟨"192.0.2.1", 60000000005⟩⟩],
        [⟨.listener 0, ⟨"192.0.2.1", 9⟩⟩]) := by
    decide +kernel
  obtain ⟨s, hrun, hstate⟩ := exists_run hexec
  obtain ⟨hadmitted, hturned⟩ := Prod.mk.inj hstate
  exact ⟨s, hrun, hadmitted, hturned, (shared_rate_limit _ _ _ _ _ (by decide) hrun).1⟩

end Seamless.Relay
