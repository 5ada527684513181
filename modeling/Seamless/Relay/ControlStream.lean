import Seamless.Relay.System

/-!
What the relay writes on the control stream of a session: one refusal, or the
`Registered` reply and then keepalives.
-/

namespace Seamless.Relay

open Seamless.Common
open Seamless.Library.ByteStream
open Seamless.Library.NetAddr

/-- The prefixes of `[Error]` and of `[Registered, Ping, Ping, …]`. -/
inductive RelayFrames : List ControlFrame → Prop
  | nothing : RelayFrames []
  | refused (code : UInt16) (message : String) : RelayFrames [.error code message]
  | registered (url : String) (pings : Nat) :
      RelayFrames (.registered url :: List.replicate pings .ping)

/-- No reply has been started. -/
def Pc.Mute : Pc → Prop
  | .tcpInsertEntry _ | .looping _ | .tcpShutdown _ | .tcpRemovePort _ | .cleaning _
  | .returned _ => False
  | _ => True

def Pc.Talking : Pc → Prop
  | .tcpInsertEntry _ | .looping _ => True
  | _ => False

def Pc.refusal : Pc → Option ControlFrame
  | .refusing reply | .httpRefusing reply => some reply
  | _ => none

/-- What a handler has said so far fits the place where it stands. -/
structure Handler.Spoken (h : Handler) : Prop where
  mute : h.pc.Mute → h.control = []
  refusal : ∀ reply, h.pc.refusal = some reply → IsRefusal reply
  talking : h.pc.Talking →
    ∃ url pings, Wrote (.registered url :: List.replicate pings .ping) h.control
  writes : Writes RelayFrames h.control

theorem relayFrames_of_isRefusal {reply : ControlFrame} (h : IsRefusal reply) :
    RelayFrames [reply] := by
  cases reply with
  | error code message => exact .refused code message
  | _ => exact h.elim

theorem Pc.Early.mute {pc : Pc} (h : pc.Early) : pc.Mute := by
  cases pc <;> trivial

theorem Pc.Early.refusal {pc : Pc} (h : pc.Early) : pc.refusal = none := by
  cases pc <;> first | rfl | exact h.elim

theorem Pc.Searching.mute {pc : Pc} (h : pc.Searching) : pc.Mute := by
  cases pc <;> trivial

theorem Pc.Searching.refusal {pc : Pc} (h : pc.Searching) : pc.refusal = none := by
  cases pc <;> first | rfl | exact h.elim

theorem Pc.Mute.not_talking {pc : Pc} (h : pc.Mute) : ¬ pc.Talking := by
  cases pc <;> first | exact id | exact h.elim

theorem Pc.mute_of_binding {pc : Pc} {port : UInt16} (h : pc.binding = some port) :
    pc.Mute := by
  cases pc <;> trivial

namespace Handler.Spoken

variable {h : Handler} {pc : Pc}

theorem silent (hs : h.Spoken) (hpc : h.pc.Mute) (hpc' : pc.Mute)
    (hrefusal : ∀ reply, pc.refusal = some reply → IsRefusal reply) : (h.goto pc).Spoken where
  mute := fun _ => hs.mute hpc
  refusal := hrefusal
  talking := fun htalking => absurd htalking hpc'.not_talking
  writes := hs.writes

theorem done (hwrites : Writes RelayFrames h.control) (hmute : ¬ pc.Mute)
    (htalking : ¬ pc.Talking) (hrefusal : pc.refusal = none) : (h.goto pc).Spoken where
  mute := fun hpc => absurd hpc hmute
  refusal := by
    intro reply hreply
    rw [goto_pc, hrefusal] at hreply
    cases hreply
  talking := fun hpc => absurd hpc htalking
  writes := hwrites

theorem writes_first {fault : Fault} {frame : ControlFrame} (hs : h.Spoken) (hpc : h.pc.Mute)
    (hframe : RelayFrames [frame]) : Writes RelayFrames (h.write fault frame).2.control := by
  have hnothing : Wrote [] (⟨h.control, fault⟩ : ByteSink).written := by
    rw [hs.mute hpc]
    exact .nil
  exact hnothing.writes_snoc .nothing hframe

theorem writes_ping {fault : Fault} {frames : List ControlFrame} {url : String} {pings : Nat}
    (hframes : frames = .registered url :: List.replicate pings .ping)
    (hwrote : Wrote frames h.control) : Writes RelayFrames (h.write fault .ping).2.control := by
  subst hframes
  have hmore : (.registered url :: List.replicate pings .ping) ++ [ControlFrame.ping] =
      .registered url :: List.replicate (pings + 1) .ping := by
    rw [List.cons_append, ← List.replicate_succ']
  exact Wrote.writes_snoc (w := ⟨h.control, fault⟩) hwrote (.registered url pings)
    (hmore ▸ .registered url (pings + 1))

end Handler.Spoken

theorem Endpoint.exit_spoken (endpoint : Endpoint) :
    ¬ endpoint.exit.Mute ∧ ¬ endpoint.exit.Talking ∧ endpoint.exit.refusal = none := by
  cases endpoint <;> exact ⟨id, id, rfl⟩

theorem Endpoint.announced_spoken (endpoint : Endpoint) :
    ¬ endpoint.announced.Mute ∧ endpoint.announced.refusal = none := by
  cases endpoint <;> exact ⟨id, rfl⟩

theorem HandlerStep.spoken {cfg : Config} {i : MuxId} {sh sh' : Shared} {h h' : Handler}
    {input : Input} (hstep : HandlerStep cfg i sh h input h' sh') (hs : h.Spoken) :
    h'.Spoken := by
  cases hstep with
  | giveUp => exact .done hs.writes id id rfl
  | advance _ hpc hpc' =>
      exact hs.silent hpc.mute hpc'.mute (by simp [hpc'.refusal])
  | pass hpc => exact hs.silent (by simp [hpc, Pc.Mute]) trivial (by simp [Pc.refusal])
  | refuse _ hpc hreply =>
      have hmute : h.pc.Mute := by
        rcases hpc with hpc | ⟨sub, hpc⟩
        · exact hpc.mute
        · simp [hpc, Pc.Mute]
      refine hs.silent hmute trivial ?_
      intro reply hrefusal
      cases hrefusal
      exact hreply
  | @refused fault reply hpc =>
      have hreply : IsRefusal reply := hs.refusal reply (by rw [hpc]; rfl)
      exact .done (hs.writes_first (by simp [hpc, Pc.Mute]) (relayFrames_of_isRefusal hreply))
        id id rfl
  | named hpc => exact hs.silent (by simp [hpc, Pc.Mute]) trivial (by simp [Pc.refusal])
  | taken hpc =>
      refine hs.silent (by simp [hpc, Pc.Mute]) trivial ?_
      intro reply hrefusal
      cases hrefusal
      trivial
  | @takenReply fault reply hpc =>
      have hreply : IsRefusal reply := hs.refusal reply (by rw [hpc]; rfl)
      exact .done (hs.writes_first (by simp [hpc, Pc.Mute]) (relayFrames_of_isRefusal hreply))
        id id rfl
  | inserted hpc => exact hs.silent (by simp [hpc, Pc.Mute]) trivial (by simp [Pc.refusal])
  | search hpc hpc' => exact hs.silent hpc.mute hpc'.mute (by simp [hpc'.refusal])
  | bound hpc => exact hs.silent (Pc.mute_of_binding hpc) trivial (by simp [Pc.refusal])
  | portInserted hpc => exact hs.silent (by simp [hpc, Pc.Mute]) trivial (by simp [Pc.refusal])
  | @announced fault endpoint hpc hwrite =>
      have hmute : h.pc.Mute := by simp [hpc, Pc.Mute]
      obtain ⟨hloud, hrefusal⟩ := endpoint.announced_spoken
      refine ⟨fun hpc' => absurd hpc' hloud, by simp [hrefusal], ?_,
        hs.writes_first hmute (.registered _ 0)⟩
      intro _
      have hnothing : Wrote [] (⟨h.control, fault⟩ : ByteSink).written := by
        rw [hs.mute hmute]
        exact .nil
      exact ⟨_, 0, hnothing.snoc hwrite⟩
  | announceFailed hpc =>
      exact .done (hs.writes_first (by simp [hpc, Pc.Mute]) (.registered _ 0)) id id rfl
  | entryInserted hpc =>
      obtain ⟨url, pings, hwrote⟩ := hs.talking (by simp [hpc, Pc.Talking])
      exact ⟨fun hpc' => hpc'.elim, by simp [Pc.refusal], fun _ => ⟨url, pings, hwrote⟩,
        hs.writes⟩
  | @pinged fault endpoint hpc hwrite =>
      obtain ⟨url, pings, hwrote⟩ := hs.talking (by simp [hpc, Pc.Talking])
      refine ⟨by simp [hpc, Pc.Mute], by simp [hpc, Pc.refusal], fun _ => ⟨url, pings + 1, ?_⟩,
        Handler.Spoken.writes_ping rfl hwrote⟩
      have hmore := Wrote.snoc (w := ⟨h.control, fault⟩) hwrote hwrite
      rwa [List.cons_append, ← List.replicate_succ'] at hmore
  | drained => exact hs
  | @left _ endpoint hpc =>
      obtain ⟨hmute, htalking, hrefusal⟩ := endpoint.exit_spoken
      exact .done hs.writes hmute htalking hrefusal
  | @pingFailed fault endpoint hpc =>
      obtain ⟨hmute, htalking, hrefusal⟩ := endpoint.exit_spoken
      obtain ⟨url, pings, hwrote⟩ := hs.talking (by simp [hpc, Pc.Talking])
      exact .done (Handler.Spoken.writes_ping rfl hwrote) hmute htalking hrefusal
  | listenerDropped => exact .done hs.writes id id rfl
  | portRemoved => exact .done hs.writes id id rfl
  | cleaned => exact .done hs.writes id id rfl

theorem spoken_accepted (client : IpAddr) :
    (Handler.accepted client).Spoken where
  mute := fun _ => rfl
  refusal := by
    rintro reply ⟨⟩
  talking := fun htalking => htalking.elim
  writes := Wrote.nil.writes .nothing

theorem spoken_reached {cfg : Config} {guard : System → Label → Prop} {lists : Lists}
    {labels : List Label} {s : System} (hrun : Reached cfg guard lists labels s) :
    s.EachHandler fun _ h => h.Spoken :=
  System.eachHandler_reached hrun (fun _ client => spoken_accepted client)
    (fun _ _ _ _ _ _ hstep hs => hstep.spoken hs)

/-- In every run of the relay, whatever its clients and its streams do. -/
theorem control_writes {cfg : Config} {guard : System → Label → Prop} {lists : Lists}
    {labels : List Label} {s : System} (hrun : Reached cfg guard lists labels s) {i : MuxId}
    {h : Handler} (hget : s.handlers[i]? = some h) : Writes RelayFrames h.control :=
  (spoken_reached hrun i h hget).writes

/-- What is on the control stream is the beginning of the call's one answer. -/
inductive Handler.Replied (h : Handler) : Prop
  | nothing (hcontrol : h.control = [])
  | refused {reply : ControlFrame} (hpc : h.pc = .returned (.error (.refused reply)))
      (hfits : FrameFits reply) (hcontrol : h.control <+: frameBytes reply)
  | registered {url : String} {more : List UInt8} (hfits : FrameFits (.registered url))
      (hcontrol : h.control <+: frameBytes (.registered url) ++ more)

namespace Handler.Replied

variable {h : Handler} {fault : Fault}

theorem goto (hs : h.Replied) (hpc : h.pc.isReturned = false) (pc : Pc) :
    (h.goto pc).Replied := by
  cases hs with
  | nothing hcontrol => exact .nothing hcontrol
  | refused hreturned => simp [hreturned, Pc.isReturned] at hpc
  | registered hfits hcontrol => exact .registered hfits hcontrol

theorem write_first (hcontrol : h.control = []) (frame : ControlFrame) :
    (h.write fault frame).2.control = [] ∨
      (FrameFits frame ∧ (h.write fault frame).2.control <+: frameBytes frame) := by
  by_cases hfits : FrameFits frame
  · obtain ⟨accepted, haccepted, hwritten, -⟩ := writeFrame_spec ⟨h.control, fault⟩ frame
    rw [hcontrol, List.nil_append] at hwritten
    rw [Handler.write, hcontrol, hwritten]
    exact .inr ⟨hfits, haccepted⟩
  · obtain ⟨size, hwrite⟩ := writeFrame_tooLarge ⟨h.control, fault⟩ hfits
    rw [Handler.write, hwrite]
    exact .inl hcontrol

theorem write_refusal (hcontrol : h.control = []) (reply : ControlFrame) :
    ((h.write fault reply).2.goto (.returned (.error (.refused reply)))).Replied := by
  rcases write_first hcontrol reply with hnothing | ⟨hfits, hwritten⟩
  · exact .nothing hnothing
  · exact .refused rfl hfits hwritten

theorem write_registered (hcontrol : h.control = []) (url : String) (pc : Pc) :
    ((h.write fault (.registered url)).2.goto pc).Replied := by
  rcases write_first hcontrol (.registered url) with hnothing | ⟨hfits, hwritten⟩
  · exact .nothing hnothing
  · exact .registered hfits (hwritten.trans (List.prefix_append _ []))

theorem write_ping {url : String} {pings : Nat}
    (hwrote : Wrote (.registered url :: List.replicate pings .ping) h.control) :
    (h.write fault .ping).2.Replied := by
  obtain ⟨accepted, -, hwritten, -⟩ := writeFrame_spec ⟨h.control, fault⟩ .ping
  have hcontrol : (h.write fault .ping).2.control <+: frameBytes (.registered url) ++
      ((List.replicate pings .ping).flatMap frameBytes ++ accepted) := by
    rw [Handler.write, hwritten, hwrote.bytes_eq, List.flatMap_cons, List.append_assoc]
  exact .registered (hwrote.fits _ List.mem_cons_self) hcontrol

end Handler.Replied

theorem HandlerStep.replied {cfg : Config} {i : MuxId} {sh sh' : Shared} {h h' : Handler}
    {input : Input} (hstep : HandlerStep cfg i sh h input h' sh') (hs : h.Spoken)
    (hreplied : h.Replied) : h'.Replied := by
  have hgoto := hreplied.goto hstep.not_returned
  cases hstep with
  | refused hpc => exact .write_refusal (hs.mute (by simp [hpc, Pc.Mute])) _
  | takenReply hpc => exact .write_refusal (hs.mute (by simp [hpc, Pc.Mute])) _
  | announced hpc => exact .write_registered (hs.mute (by simp [hpc, Pc.Mute])) _ _
  | announceFailed hpc => exact .write_registered (hs.mute (by simp [hpc, Pc.Mute])) _ _
  | pinged hpc =>
      obtain ⟨url, pings, hwrote⟩ := hs.talking (by simp [hpc, Pc.Talking])
      exact .write_ping hwrote
  | pingFailed hpc =>
      obtain ⟨url, pings, hwrote⟩ := hs.talking (by simp [hpc, Pc.Talking])
      refine (Handler.Replied.write_ping hwrote).goto ?_ _
      simp [hpc, Pc.isReturned]
  | drained => exact hreplied
  | _ => exact hgoto _

theorem Handler.Replied.refusal_read {h : Handler} {r : ByteSource} {code : UInt16}
    {message : String} (hs : h.Replied) (hcontent : r.content <+: h.control)
    (hread : (readFrame r).1 = .ok (.error code message)) :
    h.pc = .returned (.error (.refused (.error code message))) := by
  cases hs with
  | nothing hcontrol =>
      rw [hcontrol] at hcontent
      have hping : r.content <+: frameBytes .ping ++ [] := hcontent.trans List.nil_prefix
      cases readFrame_of_prefix (by decide) hping hread
  | @refused reply hpc hfits hcontrol =>
      have hprefix : r.content <+: frameBytes reply ++ [] := by
        simpa using hcontent.trans hcontrol
      rw [hpc, readFrame_of_prefix hfits hprefix hread]
  | registered hfits hcontrol =>
      cases readFrame_of_prefix hfits (hcontent.trans hcontrol) hread

end Seamless.Relay
