import Seamless.Client.Reconnect
import Seamless.Relay.Obstacles

/-!
One client process and the relay. A session that the client has given up may still be
in the relay's `tunnels` when the client comes back, and then the client is refused
its own name. Such a refusal ends the client for good.
-/

namespace Seamless.EndToEnd

open Seamless.Common
open Seamless.Client
open Seamless.Library
open Seamless.Library.NetAddr
open Seamless.Library.ByteStream
open Seamless.Library.TransitionSystem
open Seamless.Relay

/-- `calls` are the calls of `handle_client` that serve the client, the latest first, each
with what the client has put on its control stream. `blamed` is history: those of them
that were turned down and would not have been, had none of the client's sessions been in
`tunnels`. -/
structure Joint where
  relay : System
  client : Reconnect
  calls : List (MuxId × List UInt8)
  blamed : List MuxId

def Joint.initial (lists : Lists) : Joint := ⟨.initial lists, .started, [], []⟩

inductive Move where
  -- A step of the relay; connections are those of other clients.
  | relay (label : Label)
  -- The handshake of a new session of the client.
  | connected (ip : IpAddr)
  | client (input : LoopInput)

namespace Joint

def owns (j : Joint) (i : MuxId) : Bool := (j.calls.lookup i).isSome

/-- A call that serves the client reads what the client has sent. -/
def delivers (j : Joint) : Label → Bool
  | .handler i (.received (.stream r)) =>
      match j.calls.lookup i with
      | some bytes => r.content.isPrefixOf bytes
      | none => true
  | _ => true

/-- The client reads what the call that serves it has sent. -/
def hears (j : Joint) : LoopInput → Bool
  | .connected => false
  | .session (.replied r) =>
      match j.calls with
      | (i, _) :: _ =>
          match j.relay.handlers[i]? with
          | some h => r.content.isPrefixOf h.control
          | none => false
      | [] => false
  | _ => true

def blames (cfg : Config) (j : Joint) : Label → List MuxId
  | .handler i .proceed =>
      match j.relay.handlers[i]? with
      | some h =>
          if j.owns i && h.turnedDown cfg i j.relay.shared &&
              !h.turnedDown cfg i (j.relay.shared.without j.owns) then [i]
          else []
      | none => []
  | _ => []

/-- The bytes of the latest call, after a step of the client. -/
def send (j : Joint) (input : LoopInput) : List (MuxId × List UInt8) :=
  match j.calls, j.client.sent input with
  | (i, _) :: calls, some bytes => (i, bytes) :: calls
  | calls, _ => calls

def step (cfg : Config) (settings : Settings) (j : Joint) : Move → Option Joint
  | .relay label =>
      if j.delivers label then
        (j.relay.step cfg label).map fun relay =>
          { j with relay := relay, blamed := j.blames cfg label ++ j.blamed }
      else none
  | .connected ip =>
      (j.client.step settings .connected).bind fun client =>
        (j.relay.step cfg (.connect ip)).map fun relay =>
          { j with
            relay := relay
            client := client
            calls := (j.relay.handlers.length, []) :: j.calls }
  | .client input =>
      if j.hears input then
        (j.client.step settings input).map fun client =>
          { j with client := client, calls := j.send input }
      else none

/-- No other client asks for the name `sub`. -/
def unrivalled (sub : String) (j : Joint) : Move → Bool
  | .relay (.handler i (.received (.stream r))) =>
      j.owns i ||
        match (readFrame r).1 with
        | .ok (.register _ _ (.http (some requested))) => requested != sub
        | _ => true
  | _ => true

/-- When the relay checks a session of the client against `tunnels`, no entry that
stands in its way is of an earlier session of the client. -/
def cleared (cfg : Config) (j : Joint) : Move → Bool
  | .relay (.handler i .proceed) =>
      match j.relay.handlers[i]? with
      | some h =>
          !j.owns i || (h.obstacles cfg j.relay.shared).all fun entry => !j.owns entry.mux
      | none => true
  | _ => true

/-- Where the client has ended with a refusal, this is the one with which its latest call
returned, and it is not because of an earlier session of the client. -/
def NotSelfRefused (j : Joint) : Prop :=
  ∀ code message, j.client.refusal = some (code, message) →
    ∃ i bytes earlier, j.calls = (i, bytes) :: earlier ∧ i ∉ j.blamed ∧
      j.relay.At (fun h => h.pc = .returned (.error (.refused (.error code message)))) i

/-- What each call has put on its control stream fits the place where it stands. -/
def Speaks (j : Joint) : Prop := j.relay.EachHandler fun _ h => h.Spoken ∧ h.Replied

/-- A client that has ended with a refusal was refused by its latest call. -/
def Answered (j : Joint) : Prop :=
  ∀ code message, j.client.refusal = some (code, message) →
    ∃ i bytes earlier, j.calls = (i, bytes) :: earlier ∧
      j.relay.At (fun h => h.pc = .returned (.error (.refused (.error code message)))) i

section Step

variable {cfg : Config} {settings : Settings} {j j' : Joint} {move : Move}

/-- Everything a step of the two can do. -/
inductive JointStep (cfg : Config) (settings : Settings) (j : Joint) : Move → Joint → Prop
  | relayed {label : Label} {relay : System} (hrelay : j.relay.step cfg label = some relay) :
      JointStep cfg settings j (.relay label)
        { j with relay := relay, blamed := j.blames cfg label ++ j.blamed }
  | connected {ip : IpAddr} {client : Reconnect} {relay : System}
      (hclient : j.client.step settings .connected = some client)
      (hrelay : j.relay.step cfg (.connect ip) = some relay) :
      JointStep cfg settings j (.connected ip)
        { j with
          relay := relay
          client := client
          calls := (j.relay.handlers.length, []) :: j.calls }
  | moved {input : LoopInput} {client : Reconnect} (hhears : j.hears input = true)
      (hclient : j.client.step settings input = some client) :
      JointStep cfg settings j (.client input) { j with client := client, calls := j.send input }

theorem step_cases (hstep : j.step cfg settings move = some j') :
    JointStep cfg settings j move j' := by
  cases move with
  | relay label =>
      simp only [step] at hstep
      split at hstep
      · obtain ⟨relay, hrelay, rfl⟩ := Option.map_eq_some_iff.mp hstep
        exact .relayed hrelay
      · cases hstep
  | connected ip =>
      obtain ⟨client, hclient, hstep⟩ := Option.bind_eq_some_iff.mp hstep
      obtain ⟨relay, hrelay, rfl⟩ := Option.map_eq_some_iff.mp hstep
      exact .connected hclient hrelay
  | client input =>
      simp only [step] at hstep
      split at hstep
      · rename_i hhears
        obtain ⟨client, hclient, rfl⟩ := Option.map_eq_some_iff.mp hstep
        exact .moved hhears hclient
      · cases hstep

theorem blames_of_cleared {label : Label} (h : j.cleared cfg (.relay label) = true) :
    j.blames cfg label = [] := by
  unfold blames
  split
  · rename_i i
    split
    · rename_i g hget
      rw [if_neg]
      simp only [Bool.and_eq_true, Bool.not_eq_true', not_and, Bool.not_eq_false]
      rintro ⟨hown, hdown⟩
      apply Handler.turnedDown_without hdown
      simpa [cleared, hget, hown] using h
    · rfl
  · rfl

theorem unblamed_step (hcleared : j.cleared cfg move = true) (hj : j.blamed = [])
    (hstep : JointStep cfg settings j move j') : j'.blamed = [] := by
  cases hstep with
  | relayed hrelay => simp [blames_of_cleared hcleared, hj]
  | connected hclient hrelay => exact hj
  | moved hhears hclient => exact hj

theorem speaks_relayed {s s' : System} {label : Label}
    (hs : s.EachHandler fun _ h => h.Spoken ∧ h.Replied) (hstep : s.step cfg label = some s') :
    s'.EachHandler fun _ h => h.Spoken ∧ h.Replied :=
  hs.step hstep (fun _ client => ⟨spoken_accepted client, .nothing rfl⟩)
    (fun _ _ _ _ _ _ hhandler hs => ⟨hhandler.spoken hs.1, hhandler.replied hs.1 hs.2⟩)

theorem speaks_step (hj : j.Speaks) (hstep : JointStep cfg settings j move j') :
    j'.Speaks := by
  cases hstep with
  | relayed hrelay => exact speaks_relayed hj hrelay
  | connected hclient hrelay => exact speaks_relayed hj hrelay
  | moved hhears hclient => exact hj

theorem hears_replied {r : ByteSource} (h : j.hears (.session (.replied r)) = true) :
    ∃ i bytes earlier g, j.calls = (i, bytes) :: earlier ∧
      j.relay.handlers[i]? = some g ∧ r.content <+: g.control := by
  simp only [hears] at h
  split at h
  · rename_i i bytes earlier hcalls
    split at h
    · rename_i g hget
      exact ⟨i, bytes, earlier, g, hcalls, hget, List.isPrefixOf_iff_prefix.mp h⟩
    · cases h
  · cases h

theorem send_of_calls {i : MuxId} {bytes : List UInt8} {earlier : List (MuxId × List UInt8)}
    (hcalls : j.calls = (i, bytes) :: earlier) (input : LoopInput) :
    ∃ bytes', j.send input = (i, bytes') :: earlier := by
  unfold send
  rw [hcalls]
  cases j.client.sent input with
  | none => exact ⟨bytes, rfl⟩
  | some sent => exact ⟨sent, rfl⟩

theorem refusedAt_step {s s' : System} {label : Label} {reply : ControlFrame} {i : MuxId}
    (hs : s.At (fun h => h.pc = .returned (.error (.refused reply))) i)
    (hstep : s.step cfg label = some s') :
    s'.At (fun h => h.pc = .returned (.error (.refused reply))) i := by
  apply hs.step hstep
  intro h input h' sh' _ _ hhandler hpc
  have hrunning := hhandler.not_returned
  rw [hpc] at hrunning
  cases hrunning

theorem answered_step (hspeaks : j.Speaks) (hj : j.Answered)
    (hstep : JointStep cfg settings j move j') : j'.Answered := by
  intro code message hrefusal
  cases hstep with
  | relayed hrelay =>
      obtain ⟨i, bytes, earlier, hcalls, hat⟩ := hj code message hrefusal
      exact ⟨i, bytes, earlier, hcalls, refusedAt_step hat hrelay⟩
  | connected hclient hrelay =>
      obtain ⟨r, hinput, -⟩ := Reconnect.refusal_step hclient hrefusal
      cases hinput
  | moved hhears hclient =>
      obtain ⟨r, rfl, hread⟩ := Reconnect.refusal_step hclient hrefusal
      obtain ⟨i, bytes, earlier, g, hcalls, hget, hcontent⟩ := hears_replied hhears
      obtain ⟨bytes', hsend⟩ := send_of_calls hcalls (.session (.replied r))
      exact ⟨i, bytes', earlier, hsend, g, hget,
        (hspeaks i g hget).2.refusal_read hcontent hread⟩

end Step

end Joint

section Run

variable {cfg : Config} {settings : Settings} {lists : Lists} {moves : List Move} {j : Joint}

/-- In every joint run in which the relay has let go of the client's earlier sessions by
the time it checks a new one against them, the client never ends with a refusal that it
owes to itself. -/
theorem notSelfRefused_of_cleared
    (hrun : Run (Joint.step cfg settings) (fun j move => j.cleared cfg move)
      (Joint.initial lists) moves j) : j.NotSelfRefused := by
  have hinvariant : j.Speaks ∧ j.Answered ∧ j.blamed = [] := by
    refine hrun.invariant (I := fun j => j.Speaks ∧ j.Answered ∧ j.blamed = []) ?_ ?_
    · refine ⟨?_, ?_, rfl⟩
      · intro i h hi
        simp [Joint.initial, System.initial] at hi
      · rintro code message ⟨⟩
    · rintro j move j' ⟨hspeaks, hanswered, hunblamed⟩ hcleared hstep
      have hstep := Joint.step_cases hstep
      exact ⟨Joint.speaks_step hspeaks hstep, Joint.answered_step hspeaks hanswered hstep,
        Joint.unblamed_step hcleared hunblamed hstep⟩
  obtain ⟨-, hanswered, hunblamed⟩ := hinvariant
  intro code message hrefusal
  obtain ⟨i, bytes, earlier, hcalls, hat⟩ := hanswered code message hrefusal
  exact ⟨i, bytes, earlier, hcalls, by simp [hunblamed], hat⟩

end Run


/-- The client serves "app", its session drops, and it is back before the relay has
noticed. The relay then takes the steps `labels` and the client reads `reply`. -/
def comeback (labels : List Label) (reply : ControlFrame) : List Move :=
  let connects : List Move := [.connected documentationIp, .client (.session (.wrote none))]
  connects ++
    (httpRegistration 0 "app" 0 ++ [Label.handler 0 (.wrote none)]).map .relay ++
    [.client (.session (.replied (.ofList (frameBytes
      (.registered "http://app.relay.test"))))), .client (.session .muxClosed)] ++
    connects ++ labels.map .relay ++
    [.client (.session (.replied (.ofList (frameBytes reply))))]

def appClient : Settings := ⟨none, .http (some "app"), 0, fun _ => ""⟩

/-- The operator blocks the name while the client is away. -/
def blockedComeback : List Move :=
  comeback (.reloadBlocklist ["app"] :: admission 1 (.http (some "app")) ++
      [.handler 1 (.named "" 0 0), .handler 1 (.wrote none)])
    (.error 403 "subdomain 'app' is not available")

theorem notSelfRefused_blocked :
    ∃ j, Run (Joint.step (.unlimited "relay.test") appClient)
        (fun j move => j.cleared (.unlimited "relay.test") move)
        (Joint.initial ⟨none, some [], none⟩) blockedComeback j ∧
      j.client.refusal = some (403, "subdomain 'app' is not available") ∧
      j.relay.shared.holder "app" = some 0 ∧ j.NotSelfRefused := by
  have hexec : (execGuarded (Joint.step (.unlimited "relay.test") appClient)
      (fun j move => j.cleared (.unlimited "relay.test") move)
      (Joint.initial ⟨none, some [], none⟩) blockedComeback).map (fun j =>
        (j.client.refusal, j.relay.shared.holder "app")) =
      some (some (403, "subdomain 'app' is not available"), some 0) := by
    decide +kernel
  obtain ⟨j, hrun, hfacts⟩ := exists_run hexec
  simp only [Prod.mk.injEq] at hfacts
  exact ⟨j, hrun, hfacts.1, hfacts.2, notSelfRefused_of_cleared hrun⟩

def selfRefusedComeback : List Move :=
  comeback (httpRegistration 1 "app" 0 ++ [.handler 1 (.wrote none)]) (takenRefusal "app")

/-- The client comes back to its own name before the relay has noticed that it was
gone, is told that the name is taken, and gives up for good. No other client is there. -/
theorem not_notSelfRefused_comeback :
    ¬ ∀ (moves : List Move) (j : Joint),
      Run (Joint.step (.unlimited "relay.test") appClient)
        (fun j move => j.unrivalled "app" move) (Joint.initial .disabled) moves j →
      j.NotSelfRefused := by
  have hexec : (execGuarded (Joint.step (.unlimited "relay.test") appClient)
      (fun j move => j.unrivalled "app" move) (Joint.initial .disabled)
      selfRefusedComeback).map (fun j =>
        (j.client.refusal.isSome, j.calls.map Prod.fst, j.blamed)) =
      some (true, [1, 0], [1]) := by
    decide +kernel
  intro hclaim
  obtain ⟨j, hrun, hfacts⟩ := exists_run hexec
  simp only [Prod.mk.injEq] at hfacts
  obtain ⟨hrefused, hcalls, hblamed⟩ := hfacts
  obtain ⟨⟨code, message⟩, hrefusal⟩ := Option.isSome_iff_exists.mp hrefused
  obtain ⟨i, bytes, earlier, hlatest, hnot, -⟩ := hclaim _ j hrun code message hrefusal
  rw [hlatest, List.map_cons, List.cons.injEq] at hcalls
  obtain rfl : i = 1 := hcalls.1
  simp [hblamed] at hnot

end Seamless.EndToEnd
