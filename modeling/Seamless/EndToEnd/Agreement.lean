import Seamless.EndToEnd.Reconnect

/-!
What a client and the relay agree on. A client that serves a URL has it from the call of
`handle_client` that serves its session; that call has accepted the client's token and holds
an endpoint of the kind that the client asked for, whose URL this is.
-/

namespace Seamless.Common

open Seamless.Library.ByteStream

/-- The bytes are nothing yet, or they begin with the frame as far as they go. -/
def Opens (frame : ControlFrame) (bytes : List UInt8) : Prop :=
  bytes = [] ∨ FrameFits frame ∧ ∃ more, bytes <+: frameBytes frame ++ more

theorem Opens.read {frame frame' : ControlFrame} {bytes : List UInt8} {r : ByteSource}
    (hs : Opens frame bytes) (hcontent : r.content <+: bytes)
    (hread : (readFrame r).1 = .ok frame') : frame' = frame := by
  rcases hs with rfl | ⟨hfits, more, hbytes⟩
  · have hping : r.content <+: frameBytes .ping ++ [] :=
      List.IsPrefix.trans hcontent List.nil_prefix
    have hshut : r.content <+: frameBytes (.registered "") ++ [] :=
      List.IsPrefix.trans hcontent List.nil_prefix
    cases readFrame_of_prefix (by decide) hping hread
    cases readFrame_of_prefix (by decide) hshut hread
  · exact readFrame_of_prefix hfits (List.IsPrefix.trans hcontent hbytes) hread

theorem Opens.write_first (fault : Fault) (frame : ControlFrame) :
    Opens frame (writeFrame ⟨[], fault⟩ frame).2.written := by
  by_cases hfits : FrameFits frame
  · obtain ⟨accepted, haccepted, hwritten, -⟩ := writeFrame_spec ⟨[], fault⟩ frame
    rw [hwritten, List.nil_append]
    exact .inr ⟨hfits, [], haccepted.trans (List.prefix_append _ _)⟩
  · obtain ⟨size, hwrite⟩ := writeFrame_tooLarge ⟨[], fault⟩ hfits
    rw [hwrite]
    exact .inl rfl

theorem Opens.write_more {frame : ControlFrame} {frames : List ControlFrame}
    {bytes : List UInt8} (hwrote : Wrote (frame :: frames) bytes) (fault : Fault)
    (next : ControlFrame) : Opens frame (writeFrame ⟨bytes, fault⟩ next).2.written := by
  obtain ⟨accepted, -, hwritten, -⟩ := writeFrame_spec ⟨bytes, fault⟩ next
  refine .inr ⟨hwrote.fits _ List.mem_cons_self, frames.flatMap frameBytes ++ accepted, ?_⟩
  rw [hwritten, hwrote.bytes_eq, List.flatMap_cons, List.append_assoc]

end Seamless.Common

namespace Seamless.Relay

open Seamless.Common
open Seamless.Library.ByteStream
open Seamless.Library.NetAddr

/-- A client that asks for `kind` may be given the endpoint. -/
def Endpoint.Answers (cfg : Config) : Endpoint → TunnelKind → Prop
  | .http sub, .http (some requested) => sub = requested
  | .http sub, .http none => isRandomSubdomain cfg.subdomainLength sub = true
  | .tcp port, .tcp requested =>
      if requested = 0 then 10000 ≤ port.toNat ∧ port.toNat < 60000 else port = requested
  | _, _ => False

/-- A call that stands there has so far given its client what it asked for. -/
def Pc.Grants (cfg : Config) (kind : TunnelKind) : Pc → Prop
  | .rateLimiting k | .perIpCheck k | .globalCheck k | .serve k => k = kind
  | .httpInsert entry => (Endpoint.http entry.subdomain).Answers cfg kind
  | .tcpPick _ => kind = .tcp 0
  | .tcpProbe port _ => kind = .tcp 0 ∧ 10000 ≤ port.toNat ∧ port.toNat < 60000
  | .tcpBind port => kind = .tcp port ∧ port ≠ 0
  | .tcpInsertPort port | .tcpInsertEntry port | .tcpShutdown port | .tcpRemovePort port =>
      (Endpoint.tcp port).Answers cfg kind
  | .announcing endpoint | .looping endpoint | .cleaning endpoint => endpoint.Answers cfg kind
  | .start | .awaitRegister | .refusing _ | .httpRefusing _ | .returned _ => True

theorem Endpoint.answers_picked (cfg : Config) {port : UInt16}
    (h : 10000 ≤ port.toNat ∧ port.toNat < 60000) :
    (Endpoint.tcp port).Answers cfg (.tcp 0) := by
  rwa [Endpoint.Answers, if_pos rfl]

theorem Endpoint.answers_fixed (cfg : Config) {port : UInt16} (h : port ≠ 0) :
    (Endpoint.tcp port).Answers cfg (.tcp port) := by
  rw [Endpoint.Answers, if_neg h]

/-- The call reads no registration of another kind. -/
def Input.AsksFor (kind : TunnelKind) : Input → Prop
  | .received (.stream r) =>
      ∀ version token k, (readFrame r).1 = .ok (.register version token k) → k = kind
  | _ => True

section Grants

variable {cfg : Config} {kind : TunnelKind} {i : MuxId} {sh sh' : Shared} {h h' : Handler}
  {input : Input}

@[simp] theorem Endpoint.grants_exit (endpoint : Endpoint) :
    endpoint.exit.Grants cfg kind ↔ endpoint.Answers cfg kind := by
  cases endpoint <;> rfl

@[simp] theorem Endpoint.grants_announced (endpoint : Endpoint) :
    endpoint.announced.Grants cfg kind ↔ endpoint.Answers cfg kind := by
  cases endpoint <;> rfl

theorem grants_afterRegister (lists : Lists) {read : RegisterRead}
    (hasks : (Input.received read).AsksFor kind) : (afterRegister cfg lists read).Grants cfg kind := by
  cases read with
  | stream r =>
      simp only [afterRegister]
      split
      · trivial
      · rename_i version token k hread
        split
        · trivial
        · split
          · trivial
          · exact hasks version token k hread
      · trivial
  | _ => trivial

theorem grants_afterNaming {subdomain : Option String} {random : String} {unixNow : Int}
    {now : Nat} {pc : Pc} (hnaming : afterNaming cfg i sh h subdomain random unixNow now = some pc) :
    pc.Grants cfg (.http subdomain) := by
  unfold afterNaming at hnaming
  split at hnaming
  · split at hnaming <;> cases hnaming
    · trivial
    · rfl
  · split at hnaming <;> cases hnaming
    assumption

theorem grants_proceed (hgrants : h.pc.Grants cfg kind)
    (hstep : h.step cfg i sh .proceed = some (h', sh')) : h'.pc.Grants cfg kind := by
  simp only [Handler.step] at hstep
  split at hstep
  · split at hstep
    · split at hstep <;> cases hstep <;> trivial
    · cases hstep
      trivial
  · rename_i hpc
    rw [hpc] at hgrants
    split at hstep
    · cases hstep
      exact hgrants
    · split at hstep <;> cases hstep
      rw [Handler.goto_pc, afterPerIpCheck]
      split
      · trivial
      · exact hgrants
  · rename_i hpc
    rw [hpc] at hgrants
    split at hstep
    · cases hstep
      exact hgrants
    · split at hstep <;> cases hstep
      rw [Handler.goto_pc, afterGlobalCheck]
      split
      · trivial
      · exact hgrants
  · rename_i port hpc
    rw [hpc] at hgrants
    split at hstep
    · rename_i hzero
      cases hstep
      rw [hzero] at hgrants
      exact hgrants.symm
    · rename_i hfixed
      cases hstep
      exact ⟨hgrants.symm, hfixed⟩
  · rename_i entry hpc
    rw [hpc] at hgrants
    split at hstep
    · cases hstep
    · split at hstep <;> cases hstep
      · trivial
      · exact hgrants
  · cases hstep
    trivial
  · rename_i port hpc
    rw [hpc] at hgrants
    cases hstep
    exact hgrants
  · rename_i port hpc
    rw [hpc] at hgrants
    cases hstep
    exact hgrants
  · rename_i port hpc
    rw [hpc] at hgrants
    cases hstep
    exact hgrants
  · split at hstep <;> cases hstep
    trivial
  · cases hstep

theorem Handler.step_grants (hgrants : h.pc.Grants cfg kind) (hasks : input.AsksFor kind)
    (hstep : h.step cfg i sh input = some (h', sh')) : h'.pc.Grants cfg kind := by
  cases input with
  | proceed => exact grants_proceed hgrants hstep
  | received read =>
      simp only [Handler.step] at hstep
      split at hstep <;> cases hstep
      exact grants_afterRegister _ hasks
  | instant now =>
      simp only [Handler.step] at hstep
      split at hstep
      · rename_i hpc
        rw [hpc] at hgrants
        cases hstep
        rw [Handler.goto_pc]
        split
        · exact hgrants
        · trivial
      · cases hstep
  | named random unixNow now =>
      simp only [Handler.step] at hstep
      split at hstep
      · rename_i subdomain hpc
        rw [hpc] at hgrants
        obtain ⟨pc, hnaming, heq⟩ := Option.map_eq_some_iff.mp hstep
        rw [← (Prod.mk.inj heq).1, ← hgrants]
        exact grants_afterNaming hnaming
      · cases hstep
  | picked port =>
      simp only [Handler.step] at hstep
      split at hstep
      · rename_i hpc
        rw [hpc] at hgrants
        split at hstep <;> cases hstep
        rename_i hrange
        rw [Handler.goto_pc]
        split
        · exact hgrants
        · exact ⟨hgrants, hrange⟩
      · cases hstep
  | bound ok =>
      simp only [Handler.step] at hstep
      split at hstep
      · rename_i port tries hpc
        rw [hpc] at hgrants
        obtain ⟨rfl, hrange⟩ := hgrants
        split at hstep
        · split at hstep <;> cases hstep
          exact Endpoint.answers_picked cfg hrange
        · cases hstep
          rfl
      · rename_i port hpc
        rw [hpc] at hgrants
        obtain ⟨rfl, hfixed⟩ := hgrants
        split at hstep
        · split at hstep <;> cases hstep
          exact Endpoint.answers_fixed cfg hfixed
        · cases hstep
          trivial
      · cases hstep
  | wrote fault =>
      simp only [Handler.step] at hstep
      split at hstep
      · cases hstep
        trivial
      · cases hstep
        trivial
      · rename_i endpoint hpc
        rw [hpc] at hgrants
        split at hstep <;> cases hstep
        · exact endpoint.grants_announced.mpr hgrants
        · trivial
      · cases hstep
  | clocks unixNow now =>
      simp only [Handler.step] at hstep
      split at hstep
      · rename_i port hpc
        rw [hpc] at hgrants
        split at hstep <;> cases hstep
        exact hgrants
      · cases hstep
  | disconnected =>
      simp only [Handler.step] at hstep
      split at hstep
      · rename_i endpoint hpc
        rw [hpc] at hgrants
        split at hstep <;> cases hstep
        exact endpoint.grants_exit.mpr hgrants
      · cases hstep
  | ticked fault =>
      simp only [Handler.step] at hstep
      split at hstep
      · rename_i endpoint hpc
        have hanswers : endpoint.Answers cfg kind := by rwa [hpc] at hgrants
        rcases hwrite : h.write fault .ping with ⟨e | _, w⟩
        · rw [hwrite] at hstep
          cases hstep
          exact endpoint.grants_exit.mpr hanswers
        · have hw : w.pc = h.pc := by rw [← Handler.write_pc h fault .ping, hwrite]
          rw [hwrite] at hstep
          cases hstep
          rwa [hw]
      · cases hstep
  | drained n =>
      simp only [Handler.step] at hstep
      split at hstep
      · rename_i endpoint hpc
        split at hstep <;> cases hstep
        · exact hgrants
        · rw [hpc] at hgrants
          exact endpoint.grants_exit.mpr hgrants
      · cases hstep

end Grants

/-- A URL that the client can have read is that of the endpoint that it was given. -/
structure Handler.Serves (cfg : Config) (kind : TunnelKind) (h : Handler) : Prop where
  grants : h.pc.Grants cfg kind
  told : ∀ (r : ByteSource) url, r.content <+: h.control →
    (readFrame r).1 = .ok (.registered url) →
    ∃ endpoint : Endpoint, endpoint.Answers cfg kind ∧ url = endpoint.url cfg ∧
      (h.pc.endpoint = some endpoint ∨ h.pc.isReturned = true)

namespace Handler.Serves

variable {cfg : Config} {kind : TunnelKind} {i : MuxId} {sh sh' : Shared} {h h' : Handler}
  {input : Input}

theorem told_goto (hs : h.Serves cfg kind) (hrunning : h.pc.isReturned = false) (pc : Pc)
    (hkeeps : ∀ endpoint, h.pc.endpoint = some endpoint →
      pc.endpoint = some endpoint ∨ pc.isReturned = true) (r : ByteSource) (url : String)
    (hcontent : r.content <+: h.control) (hread : (readFrame r).1 = .ok (.registered url)) :
    ∃ endpoint : Endpoint, endpoint.Answers cfg kind ∧ url = endpoint.url cfg ∧
      h.pc.endpoint = some endpoint ∧ (pc.endpoint = some endpoint ∨ pc.isReturned = true) := by
  obtain ⟨endpoint, hanswers, hurl, hholds | hreturned⟩ := hs.told r url hcontent hread
  · exact ⟨endpoint, hanswers, hurl, hholds, hkeeps endpoint hholds⟩
  · rw [hrunning] at hreturned
    cases hreturned

theorem told_mute {url : String} {r : ByteSource} (hcontrol : h.control = [])
    (hcontent : r.content <+: h.control) (hread : (readFrame r).1 = .ok (.registered url)) :
    False := by
  have hping : ControlFrame.registered url = .ping :=
    Opens.read (.inl hcontrol) hcontent hread
  cases hping

theorem told_announced {endpoint : Endpoint} {fault : Fault} (hcontrol : h.control = [])
    (r : ByteSource) (url : String)
    (hcontent : r.content <+: (h.write fault (.registered (endpoint.url cfg))).2.control)
    (hread : (readFrame r).1 = .ok (.registered url)) : url = endpoint.url cfg := by
  have hopens : Opens (.registered (endpoint.url cfg))
      (h.write fault (.registered (endpoint.url cfg))).2.control := by
    rw [Handler.write, hcontrol]
    exact Opens.write_first fault _
  exact ControlFrame.registered.inj (hopens.read hcontent hread)

theorem told_refused {reply : ControlFrame} {fault : Fault} {r : ByteSource} {url : String}
    (hcontrol : h.control = []) (hreply : IsRefusal reply)
    (hcontent : r.content <+: (h.write fault reply).2.control)
    (hread : (readFrame r).1 = .ok (.registered url)) : False := by
  have hopens : Opens reply (h.write fault reply).2.control := by
    rw [Handler.write, hcontrol]
    exact Opens.write_first fault _
  rw [← hopens.read hcontent hread] at hreply
  exact hreply

theorem told_pinged (hs : h.Serves cfg kind) (hspoken : h.Spoken) {endpoint : Endpoint}
    {fault : Fault} (hpc : h.pc = .looping endpoint) (r : ByteSource) (url : String)
    (hcontent : r.content <+: (h.write fault .ping).2.control)
    (hread : (readFrame r).1 = .ok (.registered url)) :
    endpoint.Answers cfg kind ∧ url = endpoint.url cfg := by
  obtain ⟨url', pings, hwrote⟩ := hspoken.talking (by simp [hpc, Pc.Talking])
  have hurl : ControlFrame.registered url = .registered url' :=
    (Opens.write_more hwrote fault .ping).read hcontent hread
  have hcontrol : (Source.ofList h.control : ByteSource).content = frameBytes (.registered url') ++
      (List.replicate pings .ping).flatMap frameBytes := by
    rw [Source.content_ofList, hwrote.bytes_eq, List.flatMap_cons]
  obtain ⟨hread', -, -⟩ := readFrame_frameBytes (hwrote.fits _ List.mem_cons_self) hcontrol
  rw [← ControlFrame.registered.inj hurl] at hread'
  obtain ⟨endpoint', hanswers, hendpoint, hholds | hreturned⟩ := hs.told _ url
    (by rw [Source.content_ofList]) hread'
  · rw [hpc] at hholds
    cases hholds
    exact ⟨hanswers, hendpoint⟩
  · rw [hpc] at hreturned
    cases hreturned

theorem told_step (hs : h.Serves cfg kind) (hspoken : h.Spoken)
    (hstep : HandlerStep cfg i sh h input h' sh') (r : ByteSource) (url : String)
    (hcontent : r.content <+: h'.control) (hread : (readFrame r).1 = .ok (.registered url)) :
    ∃ endpoint : Endpoint, endpoint.Answers cfg kind ∧ url = endpoint.url cfg ∧
      h.pc.endpoint = some endpoint ∧
      (h'.pc.endpoint = some endpoint ∨ h'.pc.isReturned = true) := by
  have hrunning := hstep.not_returned
  cases hstep with
  | giveUp hpc => exact (told_mute (hspoken.mute (hpc.elim (·.mute) (·.mute))) hcontent hread).elim
  | advance _ hpc => exact (told_mute (hspoken.mute hpc.mute) hcontent hread).elim
  | pass hpc => exact (told_mute (hspoken.mute (by simp [hpc, Pc.Mute])) hcontent hread).elim
  | refuse _ hpc =>
      have hmute : h.pc.Mute := by
        rcases hpc with hpc | ⟨sub, hpc⟩
        · exact hpc.mute
        · simp [hpc, Pc.Mute]
      exact (told_mute (hspoken.mute hmute) hcontent hread).elim
  | refused hpc =>
      exact (told_refused (hspoken.mute (by simp [hpc, Pc.Mute]))
        (hspoken.refusal _ (by rw [hpc]; rfl)) hcontent hread).elim
  | named hpc => exact (told_mute (hspoken.mute (by simp [hpc, Pc.Mute])) hcontent hread).elim
  | taken hpc => exact (told_mute (hspoken.mute (by simp [hpc, Pc.Mute])) hcontent hread).elim
  | takenReply hpc =>
      exact (told_refused (hspoken.mute (by simp [hpc, Pc.Mute]))
        (hspoken.refusal _ (by rw [hpc]; rfl)) hcontent hread).elim
  | inserted hpc => exact (told_mute (hspoken.mute (by simp [hpc, Pc.Mute])) hcontent hread).elim
  | search hpc => exact (told_mute (hspoken.mute hpc.mute) hcontent hread).elim
  | bound hpc => exact (told_mute (hspoken.mute (Pc.mute_of_binding hpc)) hcontent hread).elim
  | portInserted hpc =>
      exact (told_mute (hspoken.mute (by simp [hpc, Pc.Mute])) hcontent hread).elim
  | announced hpc =>
      have hanswers := hs.grants
      rw [hpc] at hanswers
      have hurl := told_announced (hspoken.mute (by simp [hpc, Pc.Mute])) r url hcontent hread
      exact ⟨_, hanswers, hurl, by rw [hpc]; rfl, .inl (by simp)⟩
  | announceFailed hpc =>
      have hanswers := hs.grants
      rw [hpc] at hanswers
      have hurl := told_announced (hspoken.mute (by simp [hpc, Pc.Mute])) r url hcontent hread
      exact ⟨_, hanswers, hurl, by rw [hpc]; rfl, .inr rfl⟩
  | entryInserted hpc =>
      exact hs.told_goto hrunning _ (fun e he => .inl (by rw [hpc] at he; exact he)) r url
        hcontent hread
  | pinged hpc =>
      obtain ⟨hanswers, hurl⟩ := hs.told_pinged hspoken hpc r url hcontent hread
      exact ⟨_, hanswers, hurl, by rw [hpc]; rfl, .inl (by rw [Handler.write_pc, hpc]; rfl)⟩
  | drained hpc => exact hs.told_goto hrunning _ (fun _ he => .inl he) r url hcontent hread
  | left hpc =>
      exact hs.told_goto hrunning _ (fun e he => .inl (by rw [hpc] at he; simpa using he)) r url
        hcontent hread
  | pingFailed hpc =>
      obtain ⟨hanswers, hurl⟩ := hs.told_pinged hspoken hpc r url hcontent hread
      exact ⟨_, hanswers, hurl, by rw [hpc]; rfl, .inl (by simp)⟩
  | listenerDropped hpc =>
      exact hs.told_goto hrunning _ (fun e he => .inl (by rw [hpc] at he; exact he)) r url
        hcontent hread
  | portRemoved hpc =>
      exact hs.told_goto hrunning _ (fun e he => .inl (by rw [hpc] at he; exact he)) r url
        hcontent hread
  | cleaned hpc =>
      exact hs.told_goto hrunning _ (fun e he => .inr rfl) r url hcontent hread

theorem step (hs : h.Serves cfg kind) (hspoken : h.Spoken) (hasks : input.AsksFor kind)
    (hstep : h.step cfg i sh input = some (h', sh')) : h'.Serves cfg kind where
  grants := Handler.step_grants hs.grants hasks hstep
  told := by
    intro r url hcontent hread
    obtain ⟨endpoint, hanswers, hurl, -, hnow⟩ :=
      hs.told_step hspoken (Handler.step_cases hstep) r url hcontent hread
    exact ⟨endpoint, hanswers, hurl, hnow⟩

theorem accepted (cfg : Config) (kind : TunnelKind) (client : IpAddr) :
    (Handler.accepted client).Serves cfg kind where
  grants := trivial
  told := fun _ _ hcontent hread => (told_mute rfl hcontent hread).elim

end Handler.Serves

/-- The token check has let the call pass, and it has not come to an end yet. -/
def Pc.authorized : Pc → Bool
  | .start | .awaitRegister | .refusing _ | .httpRefusing _ | .returned _ => false
  | _ => true

theorem Pc.authorized_of_endpoint {pc : Pc} (hendpoint : pc.endpoint ≠ none)
    (hrunning : pc.isReturned = false) : pc.authorized = true := by
  cases pc <;> first | rfl | exact absurd rfl hendpoint | cases hrunning

theorem Handler.authorized_step {cfg : Config} {i : MuxId} {sh sh' : Shared} {h h' : Handler}
    {input : Input} (hstep : h.step cfg i sh input = some (h', sh'))
    (hauthorized : h'.pc.authorized = true) :
    h.pc.authorized = true ∨ ∃ r token kind, input = .received (.stream r) ∧
      (readFrame r).1 = .ok (.register protocolVersion token kind) ∧
      AuthPolicy.check cfg.subtle sh.lists.auth token = .ok () := by
  cases hpc : h.pc with
  | start =>
      cases input <;> simp only [Handler.step, hpc] at hstep <;> try cases hstep
      split at hstep
      · split at hstep <;> cases hstep <;> cases hauthorized
      · cases hstep
        cases hauthorized
  | awaitRegister =>
      cases input <;> simp only [Handler.step, hpc] at hstep <;> cases hstep
      rename_i read
      cases read with
      | stream r =>
          simp only [Handler.goto_pc, afterRegister] at hauthorized
          split at hauthorized
          · cases hauthorized
          · rename_i version token kind hread
            split at hauthorized
            · cases hauthorized
            · rename_i hversion
              rw [not_not] at hversion
              split at hauthorized
              · cases hauthorized
              · rename_i hcheck
                exact .inr ⟨r, token, kind, rfl, hversion ▸ hread, hcheck⟩
          · cases hauthorized
      | _ => cases hauthorized
  | refusing reply =>
      cases input <;> simp only [Handler.step, hpc] at hstep <;> cases hstep
      cases hauthorized
  | httpRefusing reply =>
      cases input <;> simp only [Handler.step, hpc] at hstep <;> cases hstep
      cases hauthorized
  | returned result => cases input <;> simp [Handler.step, hpc] at hstep
  | _ => exact .inl rfl

theorem HandlerStep.control_grows {cfg : Config} {i : MuxId} {sh sh' : Shared} {h h' : Handler}
    {input : Input} (hstep : HandlerStep cfg i sh h input h' sh') : h.control <+: h'.control := by
  have hwrite : ∀ (fault : Fault) (frame : ControlFrame),
      h.control <+: (h.write fault frame).2.control := by
    intro fault frame
    obtain ⟨accepted, -, hwritten, -⟩ := writeFrame_spec ⟨h.control, fault⟩ frame
    rw [Handler.write, hwritten]
    exact List.prefix_append _ _
  cases hstep with
  | refused | takenReply | announced | announceFailed | pinged | pingFailed => exact hwrite _ _
  | _ => exact List.prefix_rfl

end Seamless.Relay

namespace Seamless.Client

open Seamless.Common
open Seamless.Library.ByteStream

/-- The URL that a session serves. -/
def SessionPc.url : SessionPc → Option String
  | .serving publicUrl | .accepting publicUrl => some publicUrl
  | _ => none

def Reconnect.session? (l : Reconnect) : Option Session :=
  match l.pc with
  | .running session => some session
  | _ => none

/-- The URL that the client serves. -/
def Reconnect.url (l : Reconnect) : Option String := l.session?.bind fun s => s.pc.url

/-- A session of the client's own settings. -/
structure Session.Own (settings : Settings) (s : Session) : Prop where
  token : s.token = settings.token
  kind : s.kind = settings.kind
  spoken : s.Spoken
  opens : Opens (.register protocolVersion settings.token settings.kind) s.control

section Step

variable {settings : Settings} {l l' : Reconnect} {s s' : Session} {input : SessionInput}

theorem Session.own_opened (settings : Settings) :
    (Session.opened settings.token settings.kind).Own settings where
  token := rfl
  kind := rfl
  spoken := Session.spoken_opened _ _
  opens := .inl rfl

theorem Session.step_settings (hstep : s.step input = some s') :
    s'.token = s.token ∧ s'.kind = s.kind := by
  cases input with
  | wrote fault =>
      simp only [Session.step] at hstep
      split at hstep
      · split at hstep <;> cases hstep <;> exact ⟨rfl, rfl⟩
      · cases hstep
  | replied r =>
      simp only [Session.step] at hstep
      split at hstep <;> cases hstep
      exact ⟨rfl, rfl⟩
  | ticked fault =>
      simp only [Session.step] at hstep
      split at hstep
      · split at hstep <;> cases hstep <;> exact ⟨rfl, rfl⟩
      · cases hstep
  | drained n =>
      simp only [Session.step] at hstep
      split at hstep <;> cases hstep <;> exact ⟨rfl, rfl⟩
  | muxClosed =>
      simp only [Session.step] at hstep
      split at hstep <;> cases hstep <;> exact ⟨rfl, rfl⟩

theorem Session.step_opens (hs : s.Own settings) (hstep : s.step input = some s') :
    Opens (.register protocolVersion settings.token settings.kind) s'.control := by
  have hregister : s.register = .register protocolVersion settings.token settings.kind := by
    rw [Session.register, hs.token, hs.kind]
  cases input with
  | wrote fault =>
      simp only [Session.step] at hstep
      split at hstep
      · rename_i hpc
        have hopens : Opens s.register (s.write fault s.register).2 := by
          rw [Session.write, hs.spoken.mute hpc]
          exact Opens.write_first fault _
        rw [hregister] at hopens hstep
        rcases hwrite : s.write fault (.register protocolVersion settings.token settings.kind) with
          ⟨e | _, control⟩ <;>
          rw [hwrite] at hstep hopens <;> cases hstep <;> exact hopens
      · cases hstep
  | replied r =>
      simp only [Session.step] at hstep
      split at hstep <;> cases hstep
      exact hs.opens
  | ticked fault =>
      simp only [Session.step] at hstep
      split at hstep
      · rename_i publicUrl hpc
        obtain ⟨pings, hwrote⟩ := hs.spoken.talking (.inr ⟨publicUrl, hpc⟩)
        rw [hregister] at hwrote
        have hopens : Opens _ (s.write fault .ping).2 := Opens.write_more hwrote fault .ping
        rcases hwrite : s.write fault .ping with ⟨e | _, control⟩ <;>
          rw [hwrite] at hstep hopens <;> cases hstep <;> exact hopens
      · cases hstep
  | drained n =>
      simp only [Session.step] at hstep
      split at hstep <;> cases hstep <;> exact hs.opens
  | muxClosed =>
      simp only [Session.step] at hstep
      split at hstep <;> cases hstep <;> exact hs.opens

theorem Session.Own.step (hs : s.Own settings) (hstep : s.step input = some s') :
    s'.Own settings where
  token := (Session.step_settings hstep).1.trans hs.token
  kind := (Session.step_settings hstep).2.trans hs.kind
  spoken := hs.spoken.step hstep
  opens := Session.step_opens hs hstep

theorem Session.url_step (hstep : s.step input = some s') {url : String}
    (hurl : s'.pc.url = some url) :
    s.pc.url = some url ∨
      ∃ r, input = .replied r ∧ (readFrame r).1 = .ok (.registered url) := by
  cases input with
  | wrote fault =>
      simp only [Session.step] at hstep
      split at hstep
      · split at hstep <;> cases hstep <;> cases hurl
      · cases hstep
  | replied r =>
      simp only [Session.step] at hstep
      split at hstep <;> cases hstep
      refine .inr ⟨r, rfl, ?_⟩
      simp only [afterReply] at hurl
      split at hurl
      · cases hurl
      · rename_i publicUrl hread
        cases hurl
        exact hread
      · cases hurl
      · cases hurl
  | ticked fault =>
      simp only [Session.step] at hstep
      split at hstep
      · rename_i publicUrl hpc
        rw [hpc]
        split at hstep <;> cases hstep
        · exact .inl (by rw [← hurl, hpc])
        · exact .inl hurl
      · cases hstep
  | drained n =>
      simp only [Session.step] at hstep
      split at hstep
      · cases hstep
        exact .inl hurl
      · rename_i publicUrl _ hpc _
        rw [hpc]
        cases hstep
        exact .inl hurl
      · cases hstep
  | muxClosed =>
      simp only [Session.step] at hstep
      split at hstep <;> cases hstep <;> cases hurl

theorem Reconnect.session_step {a : LoopInput} (hstep : l.step settings a = some l')
    (hsession : l'.session? = some s') :
    (a = .connected ∧ s' = .opened settings.token settings.kind) ∨
      ∃ s input, a = .session input ∧ l.session? = some s ∧ s.step input = some s' := by
  have hnext : ∀ attempts backoff, (Reconnect.next attempts backoff).session? = none := by
    intro attempts backoff
    cases backoff <;> rfl
  have hafter : ∀ result, (l.afterSession settings result).session? = none := by
    intro result
    unfold Reconnect.afterSession
    split
    · exact hnext _ _
    · split
      · rfl
      · dsimp only
        split
        · rfl
        · exact hnext _ _
  cases a with
  | slept =>
      simp only [Reconnect.step] at hstep
      split at hstep <;> cases hstep
      cases hsession
  | ctrlC =>
      simp only [Reconnect.step] at hstep
      split at hstep <;> cases hstep
      cases hsession
  | bindFailed text =>
      simp only [Reconnect.step] at hstep
      split at hstep <;> cases hstep
      rw [hafter] at hsession
      cases hsession
  | connectFailed text =>
      simp only [Reconnect.step] at hstep
      split at hstep <;> cases hstep
      rw [hafter] at hsession
      cases hsession
  | connected =>
      simp only [Reconnect.step] at hstep
      split at hstep <;> cases hstep
      cases hsession
      exact .inl ⟨rfl, rfl⟩
  | session input =>
      simp only [Reconnect.step] at hstep
      split at hstep
      · rename_i s hpc
        obtain ⟨t, ht, rfl⟩ := Option.map_eq_some_iff.mp hstep
        unfold Reconnect.afterStep at hsession
        split at hsession
        · rw [hafter] at hsession
          cases hsession
        · cases hsession
          exact .inr ⟨s, input, rfl, by rw [Reconnect.session?, hpc], ht⟩
      · cases hstep

end Step

end Seamless.Client

namespace Seamless.EndToEnd

open Seamless.Common
open Seamless.Client
open Seamless.Library
open Seamless.Library.NetAddr
open Seamless.Library.ByteStream
open Seamless.Library.TransitionSystem
open Seamless.Relay

namespace Joint

/-- In this step call `i` reads the client's registration and accepts its token. -/
def Accepts (cfg : Config) (settings : Settings) (i : MuxId) (j : Joint) (move : Move) : Prop :=
  ∃ r, move = .relay (.handler i (.received (.stream r))) ∧
    (readFrame r).1 = .ok (.register protocolVersion settings.token settings.kind) ∧
    AuthPolicy.check cfg.subtle j.relay.shared.lists.auth settings.token = .ok ()

/-- A URL can be read off what the call has said. -/
def Says (h : Handler) (url : String) : Prop :=
  ∃ r : ByteSource, r.content <+: h.control ∧ (readFrame r).1 = .ok (.registered url)

/-- Call `i` holds the endpoint before this step. -/
def Holds (i : MuxId) (endpoint : Endpoint) (j : Joint) (_ : Move) : Prop :=
  j.relay.At (fun h => h.pc.endpoint = some endpoint) i

/-- What is known of the client and of the calls that serve it. -/
structure Agreed (cfg : Config) (settings : Settings) (lists : Lists) (moves : List Move)
    (j : Joint) : Prop where
  speaks : j.Speaks
  known : ∀ i bytes, j.calls.lookup i = some bytes → i < j.relay.handlers.length
  asks : ∀ i bytes, j.calls.lookup i = some bytes →
    Opens (.register protocolVersion settings.token settings.kind) bytes
  serves : ∀ (i : MuxId) (h : Handler), j.owns i = true → j.relay.handlers[i]? = some h →
    h.Serves cfg settings.kind
  accepted : ∀ (i : MuxId) (h : Handler), j.owns i = true → j.relay.handlers[i]? = some h →
    (h.pc.authorized = true ∨ ∃ url, Says h url) →
    Occurred (Joint.step cfg settings) (Accepts cfg settings i) (.initial lists) moves
  held : ∀ (i : MuxId) (h : Handler), j.owns i = true → j.relay.handlers[i]? = some h →
    ∀ url, Says h url → ∃ endpoint : Endpoint, endpoint.Answers cfg settings.kind ∧
      url = endpoint.url cfg ∧
      Occurred (Joint.step cfg settings) (Holds i endpoint) (.initial lists) moves ∧
      (h.pc.endpoint = some endpoint ∨ h.pc.isReturned = true)
  session : ∀ s, j.client.session? = some s → s.Own settings ∧
    ∃ i earlier, j.calls = (i, s.control) :: earlier
  heard : ∀ url, j.client.url = some url → ∃ i bytes earlier,
    j.calls = (i, bytes) :: earlier ∧ j.relay.At (fun h => Says h url) i

section Steps

variable {cfg : Config} {settings : Settings} {lists : Lists} {moves : List Move} {j j' : Joint}
  {move : Move}

theorem lookup_isSome_of_owns {i : MuxId} (h : j.owns i = true) :
    ∃ bytes, j.calls.lookup i = some bytes := Option.isSome_iff_exists.mp h

theorem owns_of_lookup {i : MuxId} {bytes : List UInt8} (h : j.calls.lookup i = some bytes) :
    j.owns i = true := by
  rw [owns, h]
  rfl

theorem Agreed.relayed (hs : j.Agreed cfg settings lists moves)
    (hrun : FreeRun (Joint.step cfg settings) (.initial lists) moves j) {label : Label}
    {relay : System} (hdelivers : j.delivers label = true)
    (hrelay : j.relay.step cfg label = some relay) (blamed : List MuxId) :
    ({ j with relay := relay, blamed := blamed } : Joint).Agreed cfg settings lists
      (moves ++ [.relay label]) where
  speaks := speaks_relayed hs.speaks hrelay
  known := by
    intro i bytes hlookup
    have hlt := hs.known i bytes hlookup
    obtain ⟨h, hget⟩ : ∃ h, j.relay.handlers[i]? = some h :=
      ⟨_, List.getElem?_eq_getElem hlt⟩
    obtain ⟨h', hget', -⟩ : relay.At (fun _ => True) i :=
      System.At.step ⟨h, hget, trivial⟩ hrelay fun _ _ _ _ _ _ _ _ => trivial
    exact (List.getElem?_eq_some_iff.mp hget').1
  asks := hs.asks
  serves := by
    intro i h' howns hget
    cases System.handler_origin hrelay hget with
    | same _ hold => exact hs.serves i h' howns hold
    | fresh _ hnew =>
        rw [hnew]
        exact .accepted cfg settings.kind _
    | @own h input hlabel hold hown =>
        refine (hs.serves i h howns hold).step (hs.speaks i h hold).1 ?_ hown
        subst hlabel
        obtain ⟨bytes, hlookup⟩ := lookup_isSome_of_owns howns
        cases input with
        | received read =>
            cases read with
            | stream r =>
                simp only [delivers, hlookup, List.isPrefixOf_iff_prefix] at hdelivers
                intro version token k hread
                cases (hs.asks i bytes hlookup).read hdelivers hread
                rfl
            | _ => trivial
        | _ => trivial
  accepted := by
    intro i h' howns hget hpassed
    cases System.handler_origin hrelay hget with
    | same _ hold => exact (hs.accepted i h' howns hold hpassed).snoc _
    | fresh _ hnew =>
        subst hnew
        rcases hpassed with hauthorized | ⟨url, r, hcontent, hread⟩
        · cases hauthorized
        · exact (Handler.Serves.told_mute rfl hcontent hread).elim
    | @own h input hlabel hold hown =>
        have hcases := Handler.step_cases hown
        rcases hpassed with hauthorized | ⟨url, r, hcontent, hread⟩
        · rcases Handler.authorized_step hown hauthorized with
            hbefore | ⟨r, token, kind, rfl, hread, hcheck⟩
          · exact (hs.accepted i h howns hold (.inl hbefore)).snoc _
          · subst hlabel
            obtain ⟨bytes, hlookup⟩ := lookup_isSome_of_owns howns
            simp only [delivers, hlookup, List.isPrefixOf_iff_prefix] at hdelivers
            cases (hs.asks i bytes hlookup).read hdelivers hread
            exact hrun.occurred_last ⟨r, rfl, hread, hcheck⟩
        · obtain ⟨endpoint, -, -, hendpoint, -⟩ := (hs.serves i h howns hold).told_step
            (hs.speaks i h hold).1 hcases r url hcontent hread
          have hauthorized := Pc.authorized_of_endpoint (by simp [hendpoint]) hcases.not_returned
          exact (hs.accepted i h howns hold (.inl hauthorized)).snoc _
  held := by
    rintro i h' howns hget url ⟨r, hcontent, hread⟩
    cases System.handler_origin hrelay hget with
    | same _ hold =>
        obtain ⟨endpoint, hanswers, hurl, hheld, hnow⟩ :=
          hs.held i h' howns hold url ⟨r, hcontent, hread⟩
        exact ⟨endpoint, hanswers, hurl, hheld.snoc _, hnow⟩
    | fresh _ hnew =>
        subst hnew
        exact (Handler.Serves.told_mute rfl hcontent hread).elim
    | @own h input hlabel hold hown =>
        obtain ⟨endpoint, hanswers, hurl, hendpoint, hnow⟩ := (hs.serves i h howns hold).told_step
          (hs.speaks i h hold).1 (Handler.step_cases hown) r url hcontent hread
        exact ⟨endpoint, hanswers, hurl, hrun.occurred_last ⟨h, hold, hendpoint⟩, hnow⟩
  session := hs.session
  heard := by
    intro url hurl
    obtain ⟨i, bytes, earlier, hcalls, hat⟩ := hs.heard url hurl
    refine ⟨i, bytes, earlier, hcalls, hat.step hrelay ?_⟩
    rintro h input h' sh' - - hhandler ⟨r, hcontent, hread⟩
    exact ⟨r, List.IsPrefix.trans hcontent hhandler.control_grows, hread⟩

theorem Agreed.connected (hs : j.Agreed cfg settings lists moves) {ip : IpAddr}
    {client : Reconnect} {relay : System}
    (hclient : j.client.step settings .connected = some client)
    (hrelay : j.relay.step cfg (.connect ip) = some relay) :
    ({ j with
      relay := relay
      client := client
      calls := (j.relay.handlers.length, []) :: j.calls } : Joint).Agreed cfg settings lists
        (moves ++ [.connected ip]) := by
  have hspeaks := speaks_relayed hs.speaks hrelay
  cases hrelay
  have hold : ∀ (i : MuxId) (h : Handler), (i == j.relay.handlers.length) = false →
      (j.relay.handlers ++ [.accepted ip])[i]? = some h → j.relay.handlers[i]? = some h := by
    intro i h hne hget
    have hlt : i < (j.relay.handlers ++ [Handler.accepted ip]).length :=
      (List.getElem?_eq_some_iff.mp hget).1
    rw [List.length_append, List.length_singleton] at hlt
    have hne : i ≠ j.relay.handlers.length := by simpa using hne
    rwa [List.getElem?_append_left (Nat.lt_of_le_of_ne (Nat.le_of_lt_succ hlt) hne)] at hget
  have howner : ∀ i, (i == j.relay.handlers.length) = false →
      (((j.relay.handlers.length, []) :: j.calls).lookup i).isSome = true → j.owns i = true := by
    intro i hne howns
    rw [List.lookup_cons, hne] at howns
    exact howns
  have hnew : ∀ (i : MuxId) (h : Handler), (i == j.relay.handlers.length) = true →
      (j.relay.handlers ++ [.accepted ip])[i]? = some h → h = .accepted ip := by
    intro i h heq hget
    obtain rfl : i = j.relay.handlers.length := by simpa using heq
    rw [List.getElem?_concat_length] at hget
    exact (Option.some.inj hget).symm
  refine ⟨hspeaks, ?_, ?_, ?_, ?_, ?_, ?_, ?_⟩
  · intro i bytes hlookup
    change i < (j.relay.handlers ++ [Handler.accepted ip]).length
    rw [List.length_append, List.length_singleton]
    cases heq : i == j.relay.handlers.length with
    | true =>
        obtain rfl : i = j.relay.handlers.length := by simpa using heq
        exact Nat.lt_succ_self _
    | false =>
        rw [List.lookup_cons, heq] at hlookup
        exact Nat.lt_succ_of_lt (hs.known i bytes hlookup)
  · intro i bytes hlookup
    cases heq : i == j.relay.handlers.length with
    | true =>
        rw [List.lookup_cons, heq] at hlookup
        cases hlookup
        exact .inl rfl
    | false =>
        rw [List.lookup_cons, heq] at hlookup
        exact hs.asks i bytes hlookup
  · intro i h howns hget
    cases heq : i == j.relay.handlers.length with
    | true =>
        rw [hnew i h heq hget]
        exact .accepted cfg settings.kind ip
    | false => exact hs.serves i h (howner i heq howns) (hold i h heq hget)
  · intro i h howns hget hpassed
    cases heq : i == j.relay.handlers.length with
    | true =>
        rw [hnew i h heq hget] at hpassed
        rcases hpassed with hauthorized | ⟨url, r, hcontent, hread⟩
        · cases hauthorized
        · exact (Handler.Serves.told_mute rfl hcontent hread).elim
    | false => exact (hs.accepted i h (howner i heq howns) (hold i h heq hget) hpassed).snoc _
  · intro i h howns hget url hsays
    cases heq : i == j.relay.handlers.length with
    | true =>
        rw [hnew i h heq hget] at hsays
        obtain ⟨r, hcontent, hread⟩ := hsays
        exact (Handler.Serves.told_mute rfl hcontent hread).elim
    | false =>
        obtain ⟨endpoint, hanswers, hurl, hheld, hnow⟩ :=
          hs.held i h (howner i heq howns) (hold i h heq hget) url hsays
        exact ⟨endpoint, hanswers, hurl, hheld.snoc _, hnow⟩
  · intro s hsession
    rcases Reconnect.session_step hclient hsession with ⟨-, rfl⟩ | ⟨s, input, hinput, -⟩
    · exact ⟨Session.own_opened settings, _, _, rfl⟩
    · cases hinput
  · intro url hurl
    obtain ⟨s, hsession, hurl⟩ := Option.bind_eq_some_iff.mp hurl
    rcases Reconnect.session_step hclient hsession with ⟨-, rfl⟩ | ⟨s, input, hinput, -⟩
    · cases hurl
    · cases hinput

theorem sent_cases {l : Reconnect} {a : LoopInput} {bytes : List UInt8}
    (hsent : l.sent a = some bytes) :
    ∃ s input s', a = .session input ∧ l.session? = some s ∧ s.step input = some s' ∧
      bytes = s'.control := by
  cases a with
  | session input =>
      simp only [Reconnect.sent] at hsent
      split at hsent
      · rename_i s hpc
        obtain ⟨s', hstep, rfl⟩ := Option.map_eq_some_iff.mp hsent
        exact ⟨s, input, s', rfl, by rw [Reconnect.session?, hpc], hstep, rfl⟩
      · cases hsent
  | _ => cases hsent

theorem lookup_send {a : LoopInput} {i : MuxId} {bytes : List UInt8}
    (hlookup : (j.send a).lookup i = some bytes) :
    j.owns i = true ∧ (j.calls.lookup i = some bytes ∨ j.client.sent a = some bytes) := by
  unfold send at hlookup
  split at hlookup
  · rename_i k old earlier sent hcalls hsent
    rw [owns, hcalls, hsent]
    rw [List.lookup_cons] at hlookup
    rw [List.lookup_cons]
    cases heq : i == k with
    | true =>
        rw [heq] at hlookup
        exact ⟨rfl, .inr hlookup⟩
    | false =>
        rw [heq] at hlookup
        exact ⟨Option.isSome_iff_exists.mpr ⟨bytes, hlookup⟩, .inl hlookup⟩
  · exact ⟨owns_of_lookup hlookup, .inl hlookup⟩

theorem Agreed.moved (hs : j.Agreed cfg settings lists moves) {a : LoopInput}
    {client : Reconnect} (hhears : j.hears a = true)
    (hclient : j.client.step settings a = some client) :
    ({ j with client := client, calls := j.send a } : Joint).Agreed cfg settings lists
      (moves ++ [.client a]) := by
  have howner : ∀ i, ((j.send a).lookup i).isSome = true → j.owns i = true := by
    intro i howns
    obtain ⟨bytes, hlookup⟩ := Option.isSome_iff_exists.mp howns
    exact (lookup_send hlookup).1
  refine ⟨hs.speaks, ?_, ?_, ?_, ?_, ?_, ?_, ?_⟩
  · intro i bytes hlookup
    obtain ⟨old, hold⟩ := lookup_isSome_of_owns (lookup_send hlookup).1
    exact hs.known i old hold
  · intro i bytes hlookup
    rcases (lookup_send hlookup).2 with hold | hsent
    · exact hs.asks i bytes hold
    · obtain ⟨s, input, s', rfl, hsession, hstep, rfl⟩ := sent_cases hsent
      exact Session.step_opens (hs.session s hsession).1 hstep
  · exact fun i h howns hget => hs.serves i h (howner i howns) hget
  · exact fun i h howns hget hpassed => (hs.accepted i h (howner i howns) hget hpassed).snoc _
  · intro i h howns hget url hsays
    obtain ⟨endpoint, hanswers, hurl, hheld, hnow⟩ := hs.held i h (howner i howns) hget url hsays
    exact ⟨endpoint, hanswers, hurl, hheld.snoc _, hnow⟩
  · intro s' hsession'
    rcases Reconnect.session_step hclient hsession' with ⟨rfl, -⟩ | ⟨s, input, rfl, hsession, hstep⟩
    · cases hhears
    · obtain ⟨hown, i, earlier, hcalls⟩ := hs.session s hsession
      refine ⟨hown.step hstep, i, earlier, ?_⟩
      have hrunning : j.client.pc = .running s := by
        unfold Reconnect.session? at hsession
        split at hsession
        · rename_i hpc
          cases hsession
          exact hpc
        · cases hsession
      have hsent : j.client.sent (.session input) = some s'.control := by
        simp only [Reconnect.sent, hrunning, hstep, Option.map_some]
      change j.send (.session input) = _
      simp only [send, hcalls, hsent]
  · intro url hurl
    obtain ⟨s', hsession', hurl'⟩ := Option.bind_eq_some_iff.mp hurl
    rcases Reconnect.session_step hclient hsession' with ⟨rfl, -⟩ | ⟨s, input, rfl, hsession, hstep⟩
    · cases hhears
    · rcases Session.url_step hstep hurl' with hbefore | ⟨r, rfl, hread⟩
      · have hserving : j.client.url = some url :=
          Option.bind_eq_some_iff.mpr ⟨s, hsession, hbefore⟩
        obtain ⟨i, bytes, earlier, hcalls, hat⟩ := hs.heard url hserving
        obtain ⟨bytes', hsend⟩ := send_of_calls hcalls (.session input)
        exact ⟨i, bytes', earlier, hsend, hat⟩
      · obtain ⟨i, bytes, earlier, h, hcalls, hget, hcontent⟩ := hears_replied hhears
        obtain ⟨bytes', hsend⟩ := send_of_calls hcalls (.session (.replied r))
        exact ⟨i, bytes', earlier, hsend, h, hget, r, hcontent, hread⟩

theorem Agreed.step (hs : j.Agreed cfg settings lists moves)
    (hrun : FreeRun (Joint.step cfg settings) (.initial lists) moves j)
    (hstep : j.step cfg settings move = some j') :
    j'.Agreed cfg settings lists (moves ++ [move]) := by
  cases step_cases hstep with
  | @relayed label relay hrelay =>
      have hdelivers : j.delivers label = true := by
        simp only [Joint.step] at hstep
        split at hstep
        · assumption
        · cases hstep
      exact hs.relayed hrun hdelivers hrelay _
  | connected hclient hrelay => exact hs.connected hclient hrelay
  | moved hhears hclient => exact hs.moved hhears hclient

end Steps

end Joint

end Seamless.EndToEnd
