import Mathlib.Logic.Function.Basic
import Seamless.Library.TransitionSystem

/-!
`forward` of the TCP passthrough: two copies, one for each way, joined. A copy ends when it
has read the end of its stream and does not shut down what it writes to; the sockets are
closed, and a peer is shown an end of stream, only when `forward` returns.
-/

namespace Seamless.Relay

open Seamless.Library.TransitionSystem

namespace Passthrough

inductive Side where
  | client
  | backend
  deriving DecidableEq

def Side.other : Side → Side
  | client => backend
  | backend => client

/-- The bytes of one side: what it has sent, whether it has closed its sending side, what
was written to the other side, and whether the copy has ended. -/
structure Flow where
  sent : List UInt8
  closed : Bool
  delivered : List UInt8
  ended : Bool
  deriving DecidableEq

/-- The next read of the copy gives the end of the stream. -/
def Flow.atEof (flow : Flow) : Bool :=
  !flow.ended && flow.closed && flow.delivered.length == flow.sent.length

structure State where
  flows : Side → Flow
  returned : Bool

inductive Move where
  | send (side : Side) (byte : UInt8)
  | close (side : Side)
  -- The copy writes the next `n` bytes.
  | copy (side : Side) (n : Nat)
  -- The copy reads the end of the stream, in a poll of `join!` in which the other does not.
  | eof (side : Side)
  -- Both copies do, in one poll.
  | eofBoth
  | join

def State.start : State := ⟨fun _ => ⟨[], false, [], false⟩, false⟩

def State.set (s : State) (side : Side) (flow : Flow) : State :=
  { s with flows := Function.update s.flows side flow }

def State.step (s : State) : Move → Option State
  | .send side byte =>
      let flow := s.flows side
      if flow.closed then none else some (s.set side { flow with sent := flow.sent ++ [byte] })
  | .close side =>
      let flow := s.flows side
      if flow.closed then none else some (s.set side { flow with closed := true })
  | .copy side n =>
      let flow := s.flows side
      let reached := flow.delivered.length + n
      if flow.ended || flow.sent.length < reached then none
      else some (s.set side { flow with delivered := flow.sent.take reached })
  | .eof side =>
      let flow := s.flows side
      if flow.atEof then some (s.set side { flow with ended := true }) else none
  | .eofBoth =>
      if (s.flows .client).atEof && (s.flows .backend).atEof then
        some { s with flows := fun side => { s.flows side with ended := true } }
      else none
  | .join =>
      if (s.flows .client).ended && (s.flows .backend).ended && !s.returned then
        some { s with returned := true }
      else none

/-- The side has closed and all its bytes are delivered, but `forward` waits for the other
copy and has shown the other side no end of stream. -/
def State.Hangs (s : State) (side : Side) : Prop :=
  (s.flows side).closed = true ∧ (s.flows side).delivered = (s.flows side).sent ∧
    (s.flows side).ended = true ∧ (s.flows side.other).ended = false ∧ s.returned = false

/-- What is delivered are the bytes that were sent, an end of stream is shown only behind
all of them, and no end of stream is held back. -/
structure State.Relays (s : State) : Prop where
  delivered : ∀ side, (s.flows side).delivered <+: (s.flows side).sent
  shown : s.returned = true →
    ∀ side, (s.flows side).closed = true ∧ (s.flows side).delivered = (s.flows side).sent
  held : ∀ side, ¬ s.Hangs side

/-- One copy ends and the other does not. -/
def Move.endsOne : Move → Bool
  | .eof _ => true
  | .send _ _ | .close _ | .copy _ _ | .eofBoth | .join => false

section Ends

variable {s s' : State} {side : Side} {flow : Flow} {move : Move} {moves : List Move}

theorem Side.other_ne (side : Side) : side.other ≠ side := by
  cases side <;> decide

theorem Side.eq_or_eq_other (side x : Side) : x = side ∨ x = side.other := by
  cases side <;> cases x <;> decide

theorem Side.other_other (side : Side) : side.other.other = side := by
  cases side <;> rfl

/-- What is known of the bytes of a side in every reachable state. -/
structure Flow.Sound (flow : Flow) : Prop where
  delivered : flow.delivered <+: flow.sent
  ended : flow.ended = true → flow.closed = true ∧ flow.delivered = flow.sent

structure State.Sound (s : State) : Prop where
  flows : ∀ side, (s.flows side).Sound
  returned : s.returned = true → ∀ side, (s.flows side).ended = true

theorem sound_start : State.start.Sound where
  flows := fun _ => ⟨List.nil_prefix, by simp [State.start]⟩
  returned := by simp [State.start]

@[simp]
theorem flows_set (s : State) (side : Side) (flow : Flow) :
    (s.set side flow).flows side = flow := Function.update_self ..

theorem flows_set_of_ne {other : Side} (h : other ≠ side) (s : State) (flow : Flow) :
    (s.set side flow).flows other = s.flows other := Function.update_of_ne h ..

theorem Flow.Sound.atEof (h : flow.Sound) (heof : flow.atEof = true) :
    flow.ended = false ∧ flow.closed = true ∧ ({ flow with ended := true } : Flow).Sound := by
  simp only [Flow.atEof, Bool.and_eq_true, Bool.not_eq_true', beq_iff_eq] at heof
  obtain ⟨⟨hrunning, hclosed⟩, hlength⟩ := heof
  exact ⟨hrunning, hclosed, h.delivered, fun _ => ⟨hclosed, h.delivered.eq_of_length hlength⟩⟩

theorem State.Sound.set (h : s.Sound) (hflow : flow.Sound)
    (hended : (s.flows side).ended = true → flow.ended = true) : (s.set side flow).Sound := by
  constructor
  · intro other
    rcases eq_or_ne other side with rfl | hne
    · rw [flows_set]
      exact hflow
    · rw [flows_set_of_ne hne]
      exact h.flows other
  · intro hreturned other
    rcases eq_or_ne other side with rfl | hne
    · rw [flows_set]
      exact hended (h.returned hreturned other)
    · rw [flows_set_of_ne hne]
      exact h.returned hreturned other

theorem step_cases (h : s.Sound) (hstep : s.step move = some s') :
    (∃ side flow, move.endsOne = false ∧ s' = s.set side flow ∧ flow.Sound ∧
      flow.ended = (s.flows side).ended ∧
      (flow.closed = (s.flows side).closed ∨ move = .close side)) ∨
    (∃ side, move = .eof side ∧ (s.flows side).atEof = true ∧
      s' = s.set side { s.flows side with ended := true }) ∨
    (move = .eofBoth ∧ (∀ side, (s.flows side).atEof = true) ∧
      s' = { s with flows := fun side => { s.flows side with ended := true } }) ∨
    (move = .join ∧ (∀ side, (s.flows side).ended = true) ∧ s' = { s with returned := true }) := by
  cases move with
  | send side byte =>
      have hflow := h.flows side
      simp only [State.step, Option.ite_none_left_eq_some, Option.some.injEq] at hstep
      obtain ⟨hopen, rfl⟩ := hstep
      refine .inl ⟨side, _, rfl, rfl, ⟨?_, ?_⟩, rfl, .inl rfl⟩
      · exact hflow.delivered.trans (List.prefix_append _ _)
      · intro hended
        exact absurd (hflow.ended hended).1 hopen
  | close side =>
      have hflow := h.flows side
      simp only [State.step, Option.ite_none_left_eq_some, Option.some.injEq] at hstep
      obtain ⟨-, rfl⟩ := hstep
      refine .inl ⟨side, _, rfl, rfl, ⟨hflow.delivered, ?_⟩, rfl, .inr rfl⟩
      intro hended
      exact ⟨rfl, (hflow.ended hended).2⟩
  | copy side n =>
      simp only [State.step, Option.ite_none_left_eq_some, Option.some.injEq, Bool.or_eq_true,
        not_or] at hstep
      obtain ⟨⟨hrunning, -⟩, rfl⟩ := hstep
      refine .inl ⟨side, _, rfl, rfl, ⟨List.take_prefix _ _, ?_⟩, rfl, .inl rfl⟩
      intro hended
      exact absurd hended hrunning
  | eof side =>
      simp only [State.step, Option.ite_none_right_eq_some, Option.some.injEq] at hstep
      obtain ⟨heof, rfl⟩ := hstep
      exact .inr (.inl ⟨side, rfl, heof, rfl⟩)
  | eofBoth =>
      simp only [State.step, Option.ite_none_right_eq_some, Option.some.injEq,
        Bool.and_eq_true] at hstep
      obtain ⟨⟨hclient, hbackend⟩, rfl⟩ := hstep
      refine .inr (.inr (.inl ⟨rfl, ?_, rfl⟩))
      rintro (_ | _)
      · exact hclient
      · exact hbackend
  | join =>
      simp only [State.step, Option.ite_none_right_eq_some, Option.some.injEq, Bool.and_eq_true,
        Bool.not_eq_true'] at hstep
      obtain ⟨⟨⟨hclient, hbackend⟩, -⟩, rfl⟩ := hstep
      refine .inr (.inr (.inr ⟨rfl, ?_, rfl⟩))
      rintro (_ | _)
      · exact hclient
      · exact hbackend

theorem sound_step (h : s.Sound) (hstep : s.step move = some s') : s'.Sound := by
  rcases step_cases h hstep with ⟨side, flow, -, rfl, hflow, hended, -⟩ |
    ⟨side, -, heof, rfl⟩ | ⟨-, heof, rfl⟩ | ⟨-, hboth, rfl⟩
  · exact h.set hflow fun hold => hended.trans hold
  · exact h.set ((h.flows side).atEof heof).2.2 fun _ => rfl
  · exact ⟨fun side => ((h.flows side).atEof (heof side)).2.2, fun _ _ => rfl⟩
  · exact ⟨h.flows, fun _ => hboth⟩

theorem relays_iff (h : s.Sound) (side : Side) :
    s.Relays ↔ (s.flows side).ended = (s.flows side.other).ended := by
  constructor
  · intro hrelays
    cases hreturned : s.returned with
    | true => rw [h.returned hreturned side, h.returned hreturned side.other]
    | false =>
        have hwaits : ∀ x, (s.flows x).ended = true → (s.flows x.other).ended = true := by
          intro x hended
          obtain ⟨hclosed, hall⟩ := (h.flows x).ended hended
          by_contra hother
          exact hrelays.held x ⟨hclosed, hall, hended, Bool.eq_false_iff.mpr hother, hreturned⟩
        rw [Bool.eq_iff_iff]
        refine ⟨hwaits side, fun hended => ?_⟩
        rw [← side.other_other]
        exact hwaits side.other hended
  · intro hsame
    refine ⟨fun x => (h.flows x).delivered, ?_, ?_⟩
    · intro hreturned x
      exact (h.flows x).ended (h.returned hreturned x)
    · rintro x ⟨-, -, hended, hother, -⟩
      have hboth : (s.flows x).ended = (s.flows x.other).ended := by
        rcases side.eq_or_eq_other x with rfl | rfl
        · exact hsame
        · rw [side.other_other]
          exact hsame.symm
      rw [hboth, hother] at hended
      cases hended

theorem relays_step_iff (h : s.Sound) (hrelays : s.Relays) (hstep : s.step move = some s') :
    s'.Relays ↔ move.endsOne = false := by
  have hsound := sound_step h hstep
  rcases step_cases h hstep with ⟨side, flow, hmove, rfl, -, hended, -⟩ |
    ⟨side, rfl, heof, rfl⟩ | ⟨rfl, -, rfl⟩ | ⟨rfl, hboth, rfl⟩
  · refine ⟨fun _ => hmove, fun _ => ?_⟩
    rw [relays_iff hsound side, flows_set, flows_set_of_ne side.other_ne, hended]
    exact (relays_iff h side).mp hrelays
  · have hsame := (relays_iff h side).mp hrelays
    obtain ⟨hrunning, -, -⟩ := (h.flows side).atEof heof
    rw [relays_iff hsound side, flows_set, flows_set_of_ne side.other_ne, ← hsame, hrunning]
    simp [Move.endsOne]
  · exact ⟨fun _ => rfl, fun _ => (relays_iff hsound .client).mpr rfl⟩
  · refine ⟨fun _ => rfl, fun _ => ?_⟩
    rw [relays_iff hsound .client]
    exact (hboth .client).trans (hboth .backend).symm

theorem hangs_until_close (h : s.Sound) (hhangs : s.Hangs side)
    (hopen : (s.flows side.other).closed = false)
    (hrun : Run State.step (fun _ move => move ≠ .close side.other) s moves s') :
    s'.Hangs side := by
  have hall : s'.Sound ∧ s'.Hangs side ∧ (s'.flows side.other).closed = false := by
    refine hrun.invariant (I := fun s => s.Sound ∧ s.Hangs side ∧
      (s.flows side.other).closed = false) ⟨h, hhangs, hopen⟩ ?_
    rintro t move u ⟨hsound, hhangs, hopen⟩ hmove hstep
    refine ⟨sound_step hsound hstep, ?_⟩
    obtain ⟨hclosed, hdelivered, hended, hwaits, hreturned⟩ := hhangs
    rcases step_cases hsound hstep with ⟨x, flow, -, rfl, hflow, hsame, hkept⟩ |
      ⟨x, rfl, heof, rfl⟩ | ⟨-, heof, -⟩ | ⟨-, hboth, -⟩
    · rcases side.eq_or_eq_other x with rfl | rfl
      · obtain ⟨hclosed', hdelivered'⟩ := hflow.ended (hsame.trans hended)
        rw [State.Hangs, flows_set, flows_set_of_ne x.other_ne]
        exact ⟨⟨hclosed', hdelivered', hsame.trans hended, hwaits, hreturned⟩, hopen⟩
      · rw [State.Hangs, flows_set, flows_set_of_ne side.other_ne.symm]
        refine ⟨⟨hclosed, hdelivered, hended, hsame.trans hwaits, hreturned⟩, ?_⟩
        exact (hkept.resolve_right hmove).trans hopen
    · obtain ⟨hrunning, hread, -⟩ := (hsound.flows x).atEof heof
      rcases side.eq_or_eq_other x with rfl | rfl
      · rw [hended] at hrunning
        cases hrunning
      · rw [hopen] at hread
        cases hread
    · obtain ⟨hrunning, -, -⟩ := (hsound.flows side).atEof (heof side)
      rw [hended] at hrunning
      cases hrunning
    · rw [hboth side.other] at hwaits
      cases hwaits
  exact hall.2.1

theorem exec_stream (bytes : List UInt8) (h : s.flows side = ⟨[], false, [], false⟩) :
    exec State.step s (bytes.map (Move.send side) ++ [.copy side bytes.length]) =
      some (s.set side ⟨bytes, false, bytes, false⟩) := by
  have hsend : ∀ (bytes front : List UInt8) (s : State),
      s.flows side = ⟨front, false, [], false⟩ →
      exec State.step s (bytes.map (Move.send side)) =
        some (s.set side ⟨front ++ bytes, false, [], false⟩) := by
    intro bytes
    induction bytes with
    | nil =>
        intro front s hs
        rw [List.append_nil, ← hs, State.set, Function.update_eq_self]
        rfl
    | cons byte bytes ih =>
        intro front s hs
        rw [List.map_cons, exec]
        simp only [State.step, hs, Bool.false_eq_true, if_false, Option.bind_some]
        rw [ih (front ++ [byte]) _ (flows_set ..)]
        simp [State.set]
  rw [exec_append, hsend bytes [] s h, Option.bind_some, exec, List.nil_append]
  simp [State.step, exec, State.set]

/-- Both sides send their streams, everything is delivered, and one side closes. -/
def halfClose (side : Side) (streams : Side → List UInt8) : List Move :=
  (streams side).map (Move.send side) ++ [.copy side (streams side).length] ++
    ((streams side.other).map (Move.send side.other) ++
      [.copy side.other (streams side.other).length]) ++ [.close side, .eof side]

theorem halfClose_hangs (side : Side) (streams : Side → List UInt8) :
    ∃ s, FreeRun State.step .start (halfClose side streams) s ∧ s.Hangs side ∧
      (s.flows side.other).closed = false ∧
      ∀ x, (s.flows x).sent = streams x ∧ (s.flows x).delivered = streams x := by
  let sent := (State.start.set side ⟨streams side, false, streams side, false⟩).set side.other
    ⟨streams side.other, false, streams side.other, false⟩
  let ended := sent.set side ⟨streams side, true, streams side, true⟩
  have hsides : sent.flows side = ⟨streams side, false, streams side, false⟩ := by
    rw [flows_set_of_ne side.other_ne.symm, flows_set]
  have hstreams : exec State.step .start (halfClose side streams) = some ended := by
    rw [halfClose, exec_append, exec_append, exec_stream _ rfl, Option.bind_some, exec_stream,
      Option.bind_some]
    · change exec State.step sent _ = some ended
      simp [exec, State.step, hsides, State.set, Flow.atEof, ended]
    · rw [flows_set_of_ne side.other_ne]
      rfl
  have hother : ended.flows side.other =
      ⟨streams side.other, false, streams side.other, false⟩ := by
    rw [flows_set_of_ne side.other_ne, flows_set]
  have hside : ended.flows side = ⟨streams side, true, streams side, true⟩ := flows_set ..
  refine ⟨ended, freeRun_of_exec hstreams, ?_, by rw [hother], ?_⟩
  · rw [State.Hangs, hside, hother]
    exact ⟨rfl, rfl, rfl, rfl, rfl⟩
  · intro x
    rcases side.eq_or_eq_other x with rfl | rfl
    · rw [hside]
      exact ⟨rfl, rfl⟩
    · rw [hother]
      exact ⟨rfl, rfl⟩

end Ends

/-- A run relays the ends of the streams exactly when none is read without the other. Whatever
the two streams are, either side's end can be held back until the other side closes. -/
theorem passthrough_relays_iff {moves : List Move} {s : State}
    (hrun : FreeRun State.step .start moves s) :
    (HoldsAlong State.step State.Relays .start moves ↔ ∀ move ∈ moves, move.endsOne = false) ∧
    ∀ (side : Side) (streams : Side → List UInt8), ∃ moves s, FreeRun State.step .start moves s ∧
      s.Hangs side ∧ (∀ x, (s.flows x).sent = streams x ∧ (s.flows x).delivered = streams x) ∧
      ∀ more s', Run State.step (fun _ move => move ≠ .close side.other) s more s' →
        s'.Hangs side := by
  constructor
  · have hguarded : HoldsAlong State.step State.Relays .start moves ↔
        Run State.step (fun _ move => move.endsOne = false) .start moves s :=
      hrun.holdsAlong_iff sound_start (fun _ _ _ => sound_step)
        ((relays_iff sound_start .client).mpr rfl) fun _ _ _ => relays_step_iff
    rw [hguarded]
    exact hrun.guarded_iff
  · intro side streams
    obtain ⟨s, hrun, hhangs, hopen, hall⟩ := halfClose_hangs side streams
    have hsound : s.Sound := hrun.invariant sound_start fun _ _ _ hs _ hstep => sound_step hs hstep
    refine ⟨_, s, hrun, hhangs, hall, ?_⟩
    intro more s' hmore
    exact hangs_until_close hsound hhangs hopen hmore

/-- Bytes both ways, and both sides close before the next poll. -/
def sharedClose : List Move :=
  [.send .client 1, .copy .client 1, .send .backend 2, .send .client 3, .copy .backend 1,
    .close .client, .close .backend, .copy .client 1, .eofBoth, .join]

theorem passthrough_relays_sharedClose :
    ∃ s, FreeRun State.step .start sharedClose s ∧ s.returned = true ∧
      HoldsAlong State.step State.Relays .start sharedClose := by
  have hexec : (exec State.step .start sharedClose).map State.returned = some true := by decide
  obtain ⟨s, hrun, hreturned⟩ := exists_freeRun hexec
  refine ⟨s, hrun, hreturned, (passthrough_relays_iff hrun).1.mpr ?_⟩
  decide

/-- A client that sends one byte and closes its sending side. -/
def oneRequest : List Move := [.send .client 1, .close .client, .copy .client 1, .eof .client]

theorem passthrough_holds_eof_back :
    ¬ ∀ moves s, FreeRun State.step .start moves s → s.Relays := by
  intro h
  have hexec : (exec State.step .start oneRequest).map (fun s => (s.flows .client, s.returned,
      (s.flows .backend).ended)) = some (⟨[1], true, [1], true⟩, false, false) := by decide
  obtain ⟨s, hrun, hfacts⟩ := exists_freeRun hexec
  simp only [Prod.mk.injEq] at hfacts
  obtain ⟨hclient, hreturned, hbackend⟩ := hfacts
  apply (h _ s hrun).held .client
  rw [State.Hangs, hclient]
  exact ⟨rfl, rfl, rfl, hbackend, hreturned⟩

end Passthrough

end Seamless.Relay
