import Seamless.Relay.Handler

/-!
What a step of a handler can do, stated once: `HandlerStep` lists the cases of
`Handler.step`, and `RegistryStep` their effect on the tunnel map and the ports.
-/

namespace Seamless.Relay

open Seamless.Common
open Seamless.Library
open Seamless.Library.NetAddr

/-- A call that has not yet passed the global cap check. -/
def Pc.Early : Pc → Prop
  | .start | .awaitRegister | .rateLimiting _ | .perIpCheck _ | .globalCheck _ => True
  | _ => False

/-- The search for a port: nothing is bound yet. -/
def Pc.Searching : Pc → Prop
  | .serve (.tcp _) | .tcpPick _ | .tcpProbe _ _ | .tcpBind _ => True
  | _ => False

def Pc.binding : Pc → Option UInt16
  | .tcpProbe port _ => some port
  | .tcpBind port => some port
  | _ => none

/-- Errors returned with nothing registered and nothing said. -/
def HandleError.Silent : HandleError → Prop
  | .refused _ | .announce _ _ => False
  | _ => True

/-- Everything one step of a handler can do. -/
inductive HandlerStep (cfg : Config) (i : MuxId) (sh : Shared) (h : Handler) :
    Input → Handler → Shared → Prop
  | giveUp {input : Input} {e : HandleError} (hpc : h.pc.Early ∨ h.pc.Searching)
      (he : e.Silent) : HandlerStep cfg i sh h input (h.goto (.returned (.error e))) sh
  | advance {input : Input} {pc : Pc} (rates : RateTable) (hpc : h.pc.Early) (hpc' : pc.Early)
      (hcheck : ∀ kind, h.pc = .perIpCheck kind → cfg.maxTunnelsPerIp ≠ 0 →
        sh.countForIp h.clientIp < cfg.maxTunnelsPerIp.toNat)
      (hkind : ∀ kind, pc = .globalCheck kind → h.pc = .perIpCheck kind) :
      HandlerStep cfg i sh h input (h.goto pc) { sh with rates := rates }
  | pass {input : Input} {kind : TunnelKind} (hpc : h.pc = .globalCheck kind)
      (hcheck : cfg.maxTunnels ≠ 0 → sh.countAll < cfg.maxTunnels.toNat) :
      HandlerStep cfg i sh h input (h.goto (.serve kind)) sh
  | refuse {input : Input} {reply : ControlFrame} (rates : RateTable)
      (hpc : h.pc.Early ∨ ∃ sub, h.pc = .serve (.http sub)) (hreply : IsRefusal reply) :
      HandlerStep cfg i sh h input (h.goto (.refusing reply)) { sh with rates := rates }
  | refused {fault : Fault} {reply : ControlFrame} (hpc : h.pc = .refusing reply) :
      HandlerStep cfg i sh h (.wrote fault)
        ((h.write fault reply).2.goto (.returned (.error (.refused reply)))) sh
  | named {input : Input} {sub : Option String} {name : String} {unixNow : Int} {now : Nat}
      (hpc : h.pc = .serve (.http sub)) (hname : ':' ∉ name.toList) :
      HandlerStep cfg i sh h input
        (h.goto (.httpInsert (.new i name h.clientIp unixNow now))) sh
  | taken {input : Input} {entry : TunnelEntry} (hpc : h.pc = .httpInsert entry)
      (hlock : sh.lock = none) :
      HandlerStep cfg i sh h input (h.goto (.httpRefusing (takenRefusal entry.subdomain)))
        { sh with lock := some i }
  | takenReply {fault : Fault} {reply : ControlFrame} (hpc : h.pc = .httpRefusing reply) :
      HandlerStep cfg i sh h (.wrote fault)
        ((h.write fault reply).2.goto (.returned (.error (.refused reply))))
        { sh with lock := none }
  | inserted {input : Input} {entry : TunnelEntry} (hpc : h.pc = .httpInsert entry)
      (hfree : sh.tunnels.lookup entry.subdomain = none) :
      HandlerStep cfg i sh h input (h.goto (.announcing (.http entry.subdomain)))
        (sh.insertTunnel entry.subdomain entry)
  | search {input : Input} {pc : Pc} (hpc : h.pc.Searching) (hpc' : pc.Searching) :
      HandlerStep cfg i sh h input (h.goto pc) sh
  | bound {port : UInt16} (hpc : h.pc.binding = some port)
      (hfree : sh.listeners.lookup port = none) :
      HandlerStep cfg i sh h (.bound true) (h.goto (.tcpInsertPort port))
        (sh.openListener port i)
  | portInserted {input : Input} {port : UInt16} (hpc : h.pc = .tcpInsertPort port) :
      HandlerStep cfg i sh h input (h.goto (.announcing (.tcp port))) (sh.insertPort port i)
  | announced {fault : Fault} {endpoint : Endpoint} (hpc : h.pc = .announcing endpoint)
      (hwrite : (h.write fault (.registered (endpoint.url cfg))).1 = .ok ()) :
      HandlerStep cfg i sh h (.wrote fault)
        ((h.write fault (.registered (endpoint.url cfg))).2.goto endpoint.announced) sh
  | announceFailed {fault : Fault} {endpoint : Endpoint} {e : CodecError}
      (hpc : h.pc = .announcing endpoint)
      (hwrite : (h.write fault (.registered (endpoint.url cfg))).1 = .error e) :
      HandlerStep cfg i sh h (.wrote fault)
        ((h.write fault (.registered (endpoint.url cfg))).2.goto
          (.returned (.error (.announce endpoint e)))) (endpoint.abandon sh)
  | entryInserted {input : Input} {port : UInt16} {unixNow : Int} {now : Nat}
      (hpc : h.pc = .tcpInsertEntry port) :
      HandlerStep cfg i sh h input (h.goto (.looping (.tcp port)))
        (sh.insertTunnel (tcpKey port) (.new i (tcpKey port) h.clientIp unixNow now))
  | pinged {fault : Fault} {endpoint : Endpoint} (hpc : h.pc = .looping endpoint)
      (hwrite : (h.write fault .ping).1 = .ok ()) :
      HandlerStep cfg i sh h (.ticked fault) (h.write fault .ping).2 sh
  | drained {input : Input} {endpoint : Endpoint} (hpc : h.pc = .looping endpoint) :
      HandlerStep cfg i sh h input h sh
  | left {input : Input} {endpoint : Endpoint} (hpc : h.pc = .looping endpoint) :
      HandlerStep cfg i sh h input (h.goto endpoint.exit) sh
  | pingFailed {fault : Fault} {endpoint : Endpoint} (hpc : h.pc = .looping endpoint) :
      HandlerStep cfg i sh h (.ticked fault) ((h.write fault .ping).2.goto endpoint.exit) sh
  | listenerDropped {input : Input} {port : UInt16} (hpc : h.pc = .tcpShutdown port) :
      HandlerStep cfg i sh h input (h.goto (.tcpRemovePort port)) (sh.dropListener port)
  | portRemoved {input : Input} {port : UInt16} (hpc : h.pc = .tcpRemovePort port) :
      HandlerStep cfg i sh h input (h.goto (.cleaning (.tcp port))) (sh.removePort port)
  | cleaned {input : Input} {endpoint : Endpoint} (hpc : h.pc = .cleaning endpoint) :
      HandlerStep cfg i sh h input (h.goto (.returned (.ok ())))
        (sh.removeTunnel endpoint.key)

section Inversion

variable {cfg : Config} {i : MuxId} {sh sh' : Shared} {h h' : Handler}

theorem afterRegister_cases (cfg : Config) (lists : Lists) (read : RegisterRead) :
    (∃ e : HandleError, afterRegister cfg lists read = .returned (.error e) ∧ e.Silent) ∨
    (∃ reply, afterRegister cfg lists read = .refusing reply ∧ IsRefusal reply) ∨
    ∃ kind, afterRegister cfg lists read = .rateLimiting kind := by
  cases read with
  | dropped => exact .inl ⟨_, rfl, trivial⟩
  | slowLoris => exact .inl ⟨_, rfl, trivial⟩
  | timedOut => exact .inl ⟨_, rfl, trivial⟩
  | stream r =>
      simp only [afterRegister]
      split
      · exact .inl ⟨_, rfl, trivial⟩
      · split
        · exact .inr (.inl ⟨_, rfl, trivial⟩)
        · split
          · exact .inr (.inl ⟨_, rfl, isRefusal_authRefusal _⟩)
          · exact .inr (.inr ⟨_, rfl⟩)
      · exact .inl ⟨_, rfl, trivial⟩

theorem handlerStep_received {read : RegisterRead}
    (hstep : h.step cfg i sh (.received read) = some (h', sh')) :
    HandlerStep cfg i sh h (.received read) h' sh' := by
  simp only [Handler.step] at hstep
  split at hstep
  · rename_i hpc
    cases hstep
    rcases afterRegister_cases cfg sh.lists read with ⟨e, heq, he⟩ | ⟨reply, heq, hreply⟩ |
      ⟨kind, heq⟩
    · rw [heq]
      exact .giveUp (.inl (by simp [hpc, Pc.Early])) he
    · rw [heq]
      exact .refuse sh.rates (.inl (by simp [hpc, Pc.Early])) hreply
    · rw [heq]
      exact .advance sh.rates (by simp [hpc, Pc.Early]) trivial (by simp [hpc]) (by simp)
  · cases hstep

theorem handlerStep_instant {now : Nat}
    (hstep : h.step cfg i sh (.instant now) = some (h', sh')) :
    HandlerStep cfg i sh h (.instant now) h' sh' := by
  simp only [Handler.step] at hstep
  split at hstep
  · rename_i hpc
    cases hstep
    split
    · exact .advance _ (by simp [hpc, Pc.Early]) trivial (by simp [hpc]) (by simp)
    · exact .refuse _ (.inl (by simp [hpc, Pc.Early])) trivial
  · cases hstep

theorem handlerStep_named {random : String} {unixNow : Int} {now : Nat}
    (hstep : h.step cfg i sh (.named random unixNow now) = some (h', sh')) :
    HandlerStep cfg i sh h (.named random unixNow now) h' sh' := by
  simp only [Handler.step] at hstep
  split at hstep
  · rename_i subdomain hpc
    simp only [Option.map_eq_some_iff, Prod.mk.injEq] at hstep
    obtain ⟨pc, hnaming, rfl, rfl⟩ := hstep
    unfold afterNaming at hnaming
    split at hnaming
    · split at hnaming
      · rename_i hcheck
        cases hnaming
        exact .refuse sh.rates (.inr ⟨_, hpc⟩) (isRefusal_of_checkRequested hcheck)
      · rename_i hcheck
        cases hnaming
        exact .named hpc (colon_notMem_of_validateSubdomain (checkRequested_valid hcheck))
    · split at hnaming
      · rename_i hrandom
        cases hnaming
        exact .named hpc (colon_notMem_of_isRandomSubdomain hrandom)
      · cases hnaming
  · cases hstep

theorem handlerStep_picked {port : UInt16}
    (hstep : h.step cfg i sh (.picked port) = some (h', sh')) :
    HandlerStep cfg i sh h (.picked port) h' sh' := by
  simp only [Handler.step] at hstep
  split at hstep
  · rename_i hpc
    split at hstep
    · cases hstep
      refine .search (by simp [hpc, Pc.Searching]) ?_
      split <;> trivial
    · cases hstep
  · cases hstep

theorem handlerStep_bound {ok : Bool}
    (hstep : h.step cfg i sh (.bound ok) = some (h', sh')) :
    HandlerStep cfg i sh h (.bound ok) h' sh' := by
  simp only [Handler.step] at hstep
  split at hstep
  · rename_i hpc
    split at hstep
    · rename_i hok
      subst hok
      split at hstep
      · cases hstep
      · rename_i hfree
        cases hstep
        exact .bound (by simp [hpc, Pc.binding]) (by simpa using hfree)
    · cases hstep
      exact .search (by simp [hpc, Pc.Searching]) trivial
  · rename_i hpc
    split at hstep
    · rename_i hok
      subst hok
      split at hstep
      · cases hstep
      · rename_i hfree
        cases hstep
        exact .bound (by simp [hpc, Pc.binding]) (by simpa using hfree)
    · cases hstep
      exact .giveUp (.inr (by simp [hpc, Pc.Searching])) trivial
  · cases hstep

theorem handlerStep_wrote {fault : Fault}
    (hstep : h.step cfg i sh (.wrote fault) = some (h', sh')) :
    HandlerStep cfg i sh h (.wrote fault) h' sh' := by
  simp only [Handler.step] at hstep
  split at hstep
  · rename_i hpc
    cases hstep
    exact .refused hpc
  · rename_i hpc
    cases hstep
    exact .takenReply hpc
  · rename_i endpoint hpc
    rcases hwrite : h.write fault (.registered (endpoint.url cfg)) with ⟨e | _, w⟩
    · obtain rfl : w = (h.write fault (.registered (endpoint.url cfg))).2 := by rw [hwrite]
      rw [hwrite] at hstep
      cases hstep
      exact .announceFailed hpc (by rw [hwrite])
    · obtain rfl : w = (h.write fault (.registered (endpoint.url cfg))).2 := by rw [hwrite]
      rw [hwrite] at hstep
      cases hstep
      exact .announced hpc (by rw [hwrite])
  · cases hstep

theorem handlerStep_ticked {fault : Fault}
    (hstep : h.step cfg i sh (.ticked fault) = some (h', sh')) :
    HandlerStep cfg i sh h (.ticked fault) h' sh' := by
  simp only [Handler.step] at hstep
  split at hstep
  · rename_i hpc
    rcases hwrite : h.write fault .ping with ⟨e | _, w⟩
    · obtain rfl : w = (h.write fault .ping).2 := by rw [hwrite]
      rw [hwrite] at hstep
      cases hstep
      exact .pingFailed hpc
    · obtain rfl : w = (h.write fault .ping).2 := by rw [hwrite]
      rw [hwrite] at hstep
      cases hstep
      exact .pinged hpc (by rw [hwrite])
  · cases hstep

theorem handlerStep_proceed
    (hstep : h.step cfg i sh .proceed = some (h', sh')) :
    HandlerStep cfg i sh h .proceed h' sh' := by
  simp only [Handler.step] at hstep
  split at hstep
  · rename_i hpc
    have hearly : h.pc.Early := by simp [hpc, Pc.Early]
    split at hstep
    · split at hstep
      · cases hstep
        exact .giveUp (.inl hearly) trivial
      · cases hstep
        exact .advance sh.rates hearly trivial (by simp [hpc]) (by simp)
    · cases hstep
      exact .advance sh.rates hearly trivial (by simp [hpc]) (by simp)
  · rename_i kind hpc
    have hearly : h.pc.Early := by simp [hpc, Pc.Early]
    split at hstep
    · rename_i hunlimited
      cases hstep
      exact .advance sh.rates hearly trivial (by simp [hunlimited]) (by simp [hpc])
    · split at hstep
      · cases hstep
      · cases hstep
        unfold afterPerIpCheck
        split
        · exact .refuse sh.rates (.inl hearly) trivial
        · rename_i hroom
          exact .advance sh.rates hearly trivial (fun _ _ _ => Nat.lt_of_not_le hroom)
            (by simp [hpc])
  · rename_i kind hpc
    have hearly : h.pc.Early := by simp [hpc, Pc.Early]
    split at hstep
    · rename_i hunlimited
      cases hstep
      exact .pass hpc (absurd hunlimited)
    · split at hstep
      · cases hstep
      · cases hstep
        unfold afterGlobalCheck
        split
        · exact .refuse sh.rates (.inl hearly) trivial
        · rename_i hroom
          exact .pass hpc fun _ => Nat.lt_of_not_le hroom
  · rename_i hpc
    split at hstep <;> cases hstep <;> exact .search (by simp [hpc, Pc.Searching]) trivial
  · rename_i entry hpc
    split at hstep
    · cases hstep
    · rename_i hlock
      split at hstep
      · cases hstep
        exact .taken hpc (by simpa using hlock)
      · rename_i hfree
        cases hstep
        exact .inserted hpc (by simpa using hfree)
  · rename_i hpc
    cases hstep
    exact .giveUp (.inr (by simp [hpc, Pc.Searching])) trivial
  · rename_i hpc
    cases hstep
    exact .portInserted hpc
  · rename_i hpc
    cases hstep
    exact .listenerDropped hpc
  · rename_i hpc
    cases hstep
    exact .portRemoved hpc
  · rename_i hpc
    split at hstep
    · cases hstep
    · cases hstep
      exact .cleaned hpc
  · cases hstep

theorem Handler.step_cases {input : Input}
    (hstep : h.step cfg i sh input = some (h', sh')) :
    HandlerStep cfg i sh h input h' sh' := by
  cases input with
  | proceed => exact handlerStep_proceed hstep
  | received read => exact handlerStep_received hstep
  | instant now => exact handlerStep_instant hstep
  | named random unixNow now => exact handlerStep_named hstep
  | picked port => exact handlerStep_picked hstep
  | bound ok => exact handlerStep_bound hstep
  | wrote fault => exact handlerStep_wrote hstep
  | clocks unixNow now =>
      simp only [Handler.step] at hstep
      split at hstep
      · rename_i hpc
        split at hstep
        · cases hstep
        · cases hstep
          exact .entryInserted hpc
      · cases hstep
  | disconnected =>
      simp only [Handler.step] at hstep
      split at hstep
      · rename_i hpc
        split at hstep
        · cases hstep
          exact .left hpc
        · cases hstep
      · cases hstep
  | ticked fault => exact handlerStep_ticked hstep
  | drained n =>
      simp only [Handler.step] at hstep
      split at hstep
      · rename_i hpc
        split at hstep
        · cases hstep
          exact .drained hpc
        · cases hstep
          exact .left hpc
      · cases hstep

end Inversion

/-- What a call has bound or inserted and not yet taken back, and what it left
behind when it returned early. -/
def Pc.endpoint : Pc → Option Endpoint
  | .tcpInsertPort port => some (.tcp port)
  | .announcing endpoint => some endpoint
  | .tcpInsertEntry port => some (.tcp port)
  | .looping endpoint => some endpoint
  | .tcpShutdown port => some (.tcp port)
  | .tcpRemovePort port => some (.tcp port)
  | .cleaning endpoint => some endpoint
  | .returned (.error (.announce endpoint _)) => some endpoint
  | _ => none

def Endpoint.name : Endpoint → Option String
  | .http sub => some sub
  | .tcp _ => none

def Pc.httpName (pc : Pc) : Option String := pc.endpoint.bind Endpoint.name

/-- The port of a live listener of the call. -/
def Pc.listening : Pc → Option UInt16
  | .tcpInsertPort port => some port
  | .announcing (.tcp port) => some port
  | .tcpInsertEntry port => some port
  | .looping (.tcp port) => some port
  | .tcpShutdown port => some port
  | _ => none

/-- The port that a call has let go of, with its cleanup still ahead. -/
def Pc.vacating : Pc → Option UInt16
  | .tcpRemovePort port => some port
  | .cleaning (.tcp port) => some port
  | _ => none

/-- The port that a call has put in the port set and not yet taken out. -/
def Pc.heldPort : Pc → Option UInt16
  | .announcing (.tcp port) => some port
  | .tcpInsertEntry port => some port
  | .looping (.tcp port) => some port
  | .tcpShutdown port => some port
  | .tcpRemovePort port => some port
  | .returned (.error (.announce (.tcp port) _)) => some port
  | _ => none

/-- The key under which a call has inserted its entry and not yet taken it out. -/
def Pc.heldKey : Pc → Option String
  | .announcing (.http sub) => some sub
  | .looping endpoint => some endpoint.key
  | .tcpShutdown port => some (tcpKey port)
  | .tcpRemovePort port => some (tcpKey port)
  | .cleaning endpoint => some endpoint.key
  | .returned (.error (.announce (.http sub) _)) => some sub
  | _ => none

def Pc.pending : Pc → Option TunnelEntry
  | .httpInsert entry => some entry
  | _ => none

section Views

variable (port : UInt16) (e : Endpoint)

@[simp] theorem Pc.endpoint_tcpInsertPort :
    (Pc.tcpInsertPort port).endpoint = some (.tcp port) := rfl

@[simp] theorem Pc.endpoint_announcing : (Pc.announcing e).endpoint = some e := rfl

@[simp] theorem Pc.endpoint_tcpInsertEntry :
    (Pc.tcpInsertEntry port).endpoint = some (.tcp port) := rfl

@[simp] theorem Pc.endpoint_looping : (Pc.looping e).endpoint = some e := rfl

@[simp] theorem Pc.endpoint_tcpShutdown :
    (Pc.tcpShutdown port).endpoint = some (.tcp port) := rfl

@[simp] theorem Pc.endpoint_tcpRemovePort :
    (Pc.tcpRemovePort port).endpoint = some (.tcp port) := rfl

@[simp] theorem Pc.endpoint_cleaning : (Pc.cleaning e).endpoint = some e := rfl

@[simp] theorem Pc.endpoint_announceFailed (error : CodecError) :
    (Pc.returned (.error (.announce e error))).endpoint = some e := rfl

end Views

@[simp] theorem Endpoint.endpoint_exit (e : Endpoint) : e.exit.endpoint = some e := by
  cases e <;> rfl

@[simp] theorem Endpoint.endpoint_announced (e : Endpoint) :
    e.announced.endpoint = some e := by
  cases e <;> rfl

@[simp] theorem Endpoint.pending_exit (e : Endpoint) : e.exit.pending = none := by
  cases e <;> rfl

@[simp] theorem Endpoint.pending_announced (e : Endpoint) : e.announced.pending = none := by
  cases e <;> rfl

@[simp] theorem Endpoint.heldPort_exit (e : Endpoint) :
    e.exit.heldPort = (Pc.looping e).heldPort := by
  cases e <;> rfl

@[simp] theorem Endpoint.heldPort_announced (e : Endpoint) :
    e.announced.heldPort = (Pc.announcing e).heldPort := by
  cases e <;> rfl

@[simp] theorem Endpoint.heldPort_announceFailed (e : Endpoint) (error : CodecError) :
    (Pc.returned (.error (.announce e error))).heldPort = (Pc.announcing e).heldPort := by
  cases e <;> rfl

@[simp] theorem Endpoint.heldKey_exit (e : Endpoint) :
    e.exit.heldKey = (Pc.looping e).heldKey := by
  cases e <;> rfl

@[simp] theorem Endpoint.heldKey_announced (e : Endpoint) :
    e.announced.heldKey = (Pc.announcing e).heldKey := by
  cases e <;> rfl

@[simp] theorem Endpoint.heldKey_announceFailed (e : Endpoint) (error : CodecError) :
    (Pc.returned (.error (.announce e error))).heldKey = (Pc.announcing e).heldKey := by
  cases e <;> rfl

theorem Pc.endpoint_of_heldKey {pc : Pc} {key : String} (h : pc.heldKey = some key) :
    ∃ endpoint, pc.endpoint = some endpoint ∧ endpoint.key = key := by
  unfold Pc.heldKey at h
  split at h <;> first | cases h; exact ⟨_, rfl, rfl⟩ | cases h

theorem Pc.heldKey_of_endpoint {pc : Pc} (h : pc.endpoint = none) : pc.heldKey = none := by
  cases hkey : pc.heldKey with
  | none => rfl
  | some key =>
      obtain ⟨endpoint, hendpoint, -⟩ := Pc.endpoint_of_heldKey hkey
      rw [hendpoint] at h
      cases h

theorem Pc.endpoint_of_heldPort {pc : Pc} {port : UInt16} (h : pc.heldPort = some port) :
    pc.endpoint = some (.tcp port) := by
  unfold Pc.heldPort at h
  split at h <;> first | cases h; rfl | cases h

theorem Pc.heldPort_of_endpoint {pc : Pc} (h : pc.endpoint = none) : pc.heldPort = none := by
  cases hport : pc.heldPort with
  | none => rfl
  | some port =>
      rw [Pc.endpoint_of_heldPort hport] at h
      cases h

theorem Pc.Early.endpoint {pc : Pc} (h : pc.Early) : pc.endpoint = none := by
  cases pc <;> first | rfl | exact absurd h id

theorem Pc.Early.pending {pc : Pc} (h : pc.Early) : pc.pending = none := by
  cases pc <;> first | rfl | exact absurd h id

theorem Pc.Searching.endpoint {pc : Pc} (h : pc.Searching) : pc.endpoint = none := by
  cases pc <;> first | rfl | exact absurd h id

theorem Pc.Searching.pending {pc : Pc} (h : pc.Searching) : pc.pending = none := by
  cases pc <;> first | rfl | exact absurd h id

theorem Pc.endpoint_of_refusable {pc : Pc}
    (h : pc.Early ∨ ∃ sub, pc = .serve (.http sub)) : pc.endpoint = none := by
  rcases h with hearly | ⟨sub, rfl⟩
  · exact hearly.endpoint
  · rfl

theorem HandleError.Silent.endpoint {e : HandleError} (h : e.Silent) :
    (Pc.returned (.error e)).endpoint = none := by
  cases e <;> first | rfl | exact absurd h id

theorem Pc.endpoint_of_binding {pc : Pc} {port : UInt16} (h : pc.binding = some port) :
    pc.endpoint = none := by
  cases pc <;> first | rfl | cases h

/-- What holds of a handler on its own: the entry it is about to insert is its
own, and an HTTP name contains no colon. -/
structure Handler.WellFormed (i : MuxId) (h : Handler) : Prop where
  pending : ∀ entry, h.pc.pending = some entry →
    entry.mux = i ∧ entry.clientIp = h.clientIp ∧ ':' ∉ entry.subdomain.toList
  name : ∀ sub, h.pc.endpoint = some (.http sub) → ':' ∉ sub.toList

theorem Handler.WellFormed.of_endpoint {i : MuxId} {h h' : Handler} (hok : h.WellFormed i)
    (hpending : h'.pc.pending = none)
    (hendpoint : h'.pc.endpoint = none ∨ h'.pc.endpoint = h.pc.endpoint) :
    h'.WellFormed i where
  pending := by simp [hpending]
  name := by
    intro sub hsub
    rcases hendpoint with hnone | hsame
    · simp [hnone] at hsub
    · exact hok.name sub (hsame ▸ hsub)

theorem HandlerStep.wellFormed {cfg : Config} {i : MuxId} {sh sh' : Shared} {h h' : Handler}
    {input : Input} (hstep : HandlerStep cfg i sh h input h' sh') (hok : h.WellFormed i) :
    h'.WellFormed i := by
  cases hstep with
  | giveUp _ he => exact hok.of_endpoint rfl (.inl he.endpoint)
  | advance _ _ hpc' => exact hok.of_endpoint hpc'.pending (.inl hpc'.endpoint)
  | named _ hname => exact ⟨by rintro entry ⟨⟩; exact ⟨rfl, rfl, hname⟩, by rintro sub ⟨⟩⟩
  | inserted hpc =>
      refine ⟨by simp [Pc.pending], ?_⟩
      rintro sub ⟨⟩
      exact (hok.pending _ (by simp [hpc, Pc.pending])).2.2
  | search _ hpc' => exact hok.of_endpoint hpc'.pending (.inl hpc'.endpoint)
  | bound => exact ⟨by rintro entry ⟨⟩, by rintro sub ⟨⟩⟩
  | announced hpc => exact hok.of_endpoint (by simp) (.inr (by simp [hpc]))
  | pinged hpc => exact hok.of_endpoint (by simp [hpc, Pc.pending]) (.inr (by simp))
  | drained hpc => exact hok
  | left hpc => exact hok.of_endpoint (by simp) (.inr (by simp [hpc]))
  | pingFailed hpc => exact hok.of_endpoint (by simp) (.inr (by simp [hpc]))
  | announceFailed hpc => exact hok.of_endpoint rfl (.inr (by simp [hpc]))
  | portInserted hpc => exact hok.of_endpoint rfl (.inr (by simp [hpc]))
  | entryInserted hpc => exact hok.of_endpoint rfl (.inr (by simp [hpc]))
  | listenerDropped hpc => exact hok.of_endpoint rfl (.inr (by simp [hpc]))
  | portRemoved hpc => exact hok.of_endpoint rfl (.inr (by simp [hpc]))
  | _ => exact hok.of_endpoint rfl (.inl rfl)

/-- What one step of a handler can do to the tunnel map and the port set. -/
inductive RegistryStep (i : MuxId) (sh : Shared) (h : Handler) (input : Input) (h' : Handler)
    (sh' : Shared) : Prop
  | unchanged (htunnels : sh'.tunnels = sh.tunnels) (hports : sh'.tcpPorts = sh.tcpPorts)
      (hendpoint : h'.pc.endpoint = h.pc.endpoint)
      (hkey : h'.pc.heldKey = h.pc.heldKey) (hport : h'.pc.heldPort = h.pc.heldPort)
  | bound {port : UInt16} (hinput : input = .bound true) (hpc : h.pc.binding = some port)
      (hpc' : h'.pc = .tcpInsertPort port) (hfree : sh.listeners.lookup port = none)
      (hsh : sh' = sh.openListener port i)
  | insertedHttp {entry : TunnelEntry} (hpc : h.pc = .httpInsert entry)
      (hpc' : h'.pc = .announcing (.http entry.subdomain))
      (hfree : sh.tunnels.lookup entry.subdomain = none)
      (hsh : sh' = sh.insertTunnel entry.subdomain entry)
  | insertedPort {port : UInt16} (hpc : h.pc = .tcpInsertPort port)
      (hpc' : h'.pc = .announcing (.tcp port)) (hsh : sh' = sh.insertPort port i)
  | insertedTcp {port : UInt16} {entry : TunnelEntry} (hpc : h.pc = .tcpInsertEntry port)
      (hpc' : h'.pc = .looping (.tcp port)) (hmux : entry.mux = i)
      (hsh : sh' = sh.insertTunnel (tcpKey port) entry)
  | removedPort {port : UInt16} (hpc : h.pc = .tcpRemovePort port)
      (hpc' : h'.pc = .cleaning (.tcp port)) (hsh : sh' = sh.removePort port)
  | removedTunnel {endpoint : Endpoint} (hpc : h.pc = .cleaning endpoint)
      (hpc' : h'.pc = .returned (.ok ())) (hsh : sh' = sh.removeTunnel endpoint.key)

@[simp] theorem Endpoint.abandon_tunnels (sh : Shared) (e : Endpoint) :
    (e.abandon sh).tunnels = sh.tunnels := by
  cases e <;> rfl

@[simp] theorem Endpoint.abandon_tcpPorts (sh : Shared) (e : Endpoint) :
    (e.abandon sh).tcpPorts = sh.tcpPorts := by
  cases e <;> rfl

@[simp] theorem Endpoint.abandon_swept (sh : Shared) (e : Endpoint) :
    (e.abandon sh).swept = sh.swept := by
  cases e <;> rfl

@[simp] theorem Endpoint.abandon_customDomains (sh : Shared) (e : Endpoint) :
    (e.abandon sh).customDomains = sh.customDomains := by
  cases e <;> rfl

theorem RegistryStep.idle {i : MuxId} {sh sh' : Shared} {h h' : Handler} {input : Input}
    (htunnels : sh'.tunnels = sh.tunnels) (hports : sh'.tcpPorts = sh.tcpPorts)
    (hpc : h.pc.endpoint = none) (hpc' : h'.pc.endpoint = none) :
    RegistryStep i sh h input h' sh' :=
  .unchanged htunnels hports (hpc'.trans hpc.symm)
    ((Pc.heldKey_of_endpoint hpc').trans (Pc.heldKey_of_endpoint hpc).symm)
    ((Pc.heldPort_of_endpoint hpc').trans (Pc.heldPort_of_endpoint hpc).symm)

theorem HandlerStep.registry {cfg : Config} {i : MuxId} {sh sh' : Shared} {h h' : Handler}
    {input : Input} (hstep : HandlerStep cfg i sh h input h' sh') :
    RegistryStep i sh h input h' sh' := by
  cases hstep with
  | giveUp hpc he => exact .idle rfl rfl (hpc.elim (·.endpoint) (·.endpoint)) he.endpoint
  | advance _ hpc hpc' => exact .idle rfl rfl hpc.endpoint hpc'.endpoint
  | pass hpc => exact .idle rfl rfl (by rw [hpc]; rfl) rfl
  | refuse _ hpc => exact .idle rfl rfl (Pc.endpoint_of_refusable hpc) rfl
  | refused hpc => exact .idle rfl rfl (by rw [hpc]; rfl) rfl
  | named hpc => exact .idle rfl rfl (by rw [hpc]; rfl) rfl
  | taken hpc => exact .idle rfl rfl (by rw [hpc]; rfl) rfl
  | takenReply hpc => exact .idle rfl rfl (by rw [hpc]; rfl) rfl
  | inserted hpc hfree => exact .insertedHttp hpc rfl hfree rfl
  | search hpc hpc' => exact .idle rfl rfl hpc.endpoint hpc'.endpoint
  | bound hpc hfree => exact .bound rfl hpc rfl hfree rfl
  | portInserted hpc => exact .insertedPort hpc rfl rfl
  | announced hpc => exact .unchanged rfl rfl (by simp [hpc]) (by simp [hpc]) (by simp [hpc])
  | announceFailed hpc =>
      exact .unchanged (by simp) (by simp) (by simp [hpc]) (by simp [hpc]) (by simp [hpc])
  | entryInserted hpc => exact .insertedTcp hpc rfl rfl rfl
  | pinged hpc => exact .unchanged rfl rfl (by simp) (by simp) (by simp)
  | drained hpc => exact .unchanged rfl rfl rfl rfl rfl
  | left hpc => exact .unchanged rfl rfl (by simp [hpc]) (by simp [hpc]) (by simp [hpc])
  | pingFailed hpc => exact .unchanged rfl rfl (by simp [hpc]) (by simp [hpc]) (by simp [hpc])
  | listenerDropped hpc =>
      exact .unchanged rfl rfl (by simp [hpc]) (by rw [hpc]; rfl) (by rw [hpc]; rfl)
  | portRemoved hpc => exact .removedPort hpc rfl rfl
  | cleaned hpc => exact .removedTunnel hpc rfl rfl

/-- What one step of a handler can do to the tunnel map alone. -/
inductive TunnelsStep (i : MuxId) (sh : Shared) (pc : Pc) (sh' : Shared) : Prop
  | unchanged (htunnels : sh'.tunnels = sh.tunnels)
  | insertedHttp {entry : TunnelEntry} (hpc : pc = .httpInsert entry)
      (hfree : sh.tunnels.lookup entry.subdomain = none)
      (hsh : sh' = sh.insertTunnel entry.subdomain entry)
  | insertedTcp {port : UInt16} {entry : TunnelEntry} (hpc : pc = .tcpInsertEntry port)
      (hmux : entry.mux = i) (hsh : sh' = sh.insertTunnel (tcpKey port) entry)
  | removed {endpoint : Endpoint} (hpc : pc = .cleaning endpoint)
      (hsh : sh' = sh.removeTunnel endpoint.key)

theorem HandlerStep.tunnels {cfg : Config} {i : MuxId} {sh sh' : Shared} {h h' : Handler}
    {input : Input} (hstep : HandlerStep cfg i sh h input h' sh') :
    TunnelsStep i sh h.pc sh' := by
  cases hstep.registry with
  | unchanged htunnels => exact .unchanged htunnels
  | bound _ _ _ _ hsh => exact .unchanged (by rw [hsh]; rfl)
  | insertedHttp hpc _ hfree hsh => exact .insertedHttp hpc hfree hsh
  | insertedPort _ _ hsh => exact .unchanged (by rw [hsh]; rfl)
  | insertedTcp hpc _ hmux hsh => exact .insertedTcp hpc hmux hsh
  | removedPort _ _ hsh => exact .unchanged (by rw [hsh]; rfl)
  | removedTunnel hpc _ hsh => exact .removed hpc hsh

theorem HandlerStep.swept {cfg : Config} {i : MuxId} {sh sh' : Shared} {h h' : Handler}
    {input : Input} (hstep : HandlerStep cfg i sh h input h' sh') : sh'.swept = sh.swept := by
  cases hstep <;> first | rfl | simp

theorem HandlerStep.customDomains {cfg : Config} {i : MuxId} {sh sh' : Shared}
    {h h' : Handler} {input : Input} (hstep : HandlerStep cfg i sh h input h' sh') :
    sh'.customDomains = sh.customDomains := by
  cases hstep <;> first | rfl | simp

/-- What one step of a handler can do to the listeners. -/
inductive ListenerStep (i : MuxId) (sh : Shared) (h h' : Handler) (sh' : Shared) : Prop
  | unchanged (hlisteners : sh'.listeners = sh.listeners)
      (hlistening : h'.pc.listening = h.pc.listening)
  | bound {port : UInt16} (hpc : h.pc.listening = none) (hpc' : h'.pc.listening = some port)
      (hfree : sh.listeners.lookup port = none)
      (hlisteners : sh'.listeners = sh.listeners.insert port i)
  | dropped {port : UInt16} (hpc : h.pc.listening = some port) (hpc' : h'.pc.listening = none)
      (hlisteners : sh'.listeners = sh.listeners.erase port)

theorem Pc.listening_of_endpoint {pc : Pc} (h : pc.endpoint = none) : pc.listening = none := by
  cases hport : pc.listening with
  | none => rfl
  | some port =>
      unfold Pc.listening at hport
      split at hport <;> first | cases h | cases hport

theorem ListenerStep.idle {i : MuxId} {sh sh' : Shared} {h h' : Handler}
    (hlisteners : sh'.listeners = sh.listeners) (hpc : h.pc.endpoint = none)
    (hpc' : h'.pc.endpoint = none) : ListenerStep i sh h h' sh' :=
  .unchanged hlisteners
    ((Pc.listening_of_endpoint hpc').trans (Pc.listening_of_endpoint hpc).symm)

theorem HandlerStep.listener {cfg : Config} {i : MuxId} {sh sh' : Shared} {h h' : Handler}
    {input : Input} (hstep : HandlerStep cfg i sh h input h' sh') :
    ListenerStep i sh h h' sh' := by
  cases hstep with
  | giveUp hpc he => exact .idle rfl (hpc.elim (·.endpoint) (·.endpoint)) he.endpoint
  | advance _ hpc hpc' => exact .idle rfl hpc.endpoint hpc'.endpoint
  | refuse _ hpc => exact .idle rfl (Pc.endpoint_of_refusable hpc) rfl
  | search hpc hpc' => exact .idle rfl hpc.endpoint hpc'.endpoint
  | bound hpc hfree =>
      exact .bound (Pc.listening_of_endpoint (Pc.endpoint_of_binding hpc)) rfl hfree rfl
  | @announced _ endpoint hpc =>
      cases endpoint <;> exact .unchanged rfl (by rw [hpc]; rfl)
  | @announceFailed _ endpoint _ hpc =>
      cases endpoint with
      | http sub => exact .unchanged rfl (by rw [hpc]; rfl)
      | tcp port => exact .dropped (by rw [hpc]; rfl) rfl rfl
  | pinged hpc => exact .unchanged rfl rfl
  | drained hpc => exact .unchanged rfl rfl
  | @left _ endpoint hpc => cases endpoint <;> exact .unchanged rfl (by rw [hpc]; rfl)
  | @pingFailed _ endpoint hpc => cases endpoint <;> exact .unchanged rfl (by rw [hpc]; rfl)
  | listenerDropped hpc => exact .dropped (by rw [hpc]; rfl) rfl rfl
  | @cleaned _ endpoint hpc => cases endpoint <;> exact .unchanged rfl (by rw [hpc]; rfl)
  | inserted hpc => exact .unchanged rfl (by rw [hpc]; rfl)
  | taken hpc => exact .unchanged rfl (by rw [hpc]; rfl)
  | pass hpc => exact .unchanged rfl (by rw [hpc]; rfl)
  | named hpc => exact .unchanged rfl (by rw [hpc]; rfl)
  | _ =>
      rename_i hpc
      exact .unchanged rfl (by rw [hpc]; rfl)

theorem HandlerStep.not_returned {cfg : Config} {i : MuxId} {sh sh' : Shared} {h h' : Handler}
    {input : Input} (hstep : HandlerStep cfg i sh h input h' sh') :
    h.pc.isReturned = false := by
  have hearly : ∀ pc : Pc, pc.Early → pc.isReturned = false := by
    intro pc hpc
    cases pc <;> first | rfl | exact absurd hpc id
  have hsearching : ∀ pc : Pc, pc.Searching → pc.isReturned = false := by
    intro pc hpc
    cases pc <;> first | rfl | exact absurd hpc id
  cases hstep with
  | giveUp hpc => exact hpc.elim (hearly _) (hsearching _)
  | advance _ hpc => exact hearly _ hpc
  | refuse _ hpc =>
      rcases hpc with hpc | ⟨sub, hpc⟩
      · exact hearly _ hpc
      · rw [hpc]
        rfl
  | search hpc => exact hsearching _ hpc
  | bound hpc =>
      cases hbind : h.pc <;> rw [hbind] at hpc <;> first | rfl | cases hpc
  | _ => simp [*, Pc.isReturned]

end Seamless.Relay
