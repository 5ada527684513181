import Seamless.Relay.AdminApi
import Seamless.Relay.Registration

/-!
The gates in front of the registry. Each is an event of a run: a step of one
call, judged against the lists that are in force when it is taken. An entry is
inserted only by a call that has all gates behind it, and a call that fails at a
gate never touches the shared maps.
-/

namespace Seamless.Relay

open Seamless.Common
open Seamless.Library
open Seamless.Library.ByteStream
open Seamless.Library.TransitionSystem

section Gates

variable (cfg : Config) (i : MuxId) (s : System)

/-- Call `i` finds its client address not denied. -/
inductive PassesDenylist : Label → Prop
  | mk {h : Handler} (hget : s.handlers[i]? = some h) (hpc : h.pc = .start)
      (hlist : ∀ entries, s.shared.lists.denylist = some entries →
        isDenied entries h.client = false) :
      PassesDenylist (.handler i .proceed)

/-- Call `i` reads a `Register` frame of this protocol version, with a token that
is accepted. -/
inductive PassesRegister : Label → Prop
  | mk {h : Handler} {r : ByteSource} {token : Option String} {kind : TunnelKind}
      (hget : s.handlers[i]? = some h) (hpc : h.pc = .awaitRegister)
      (hframe : (readFrame r).1 = .ok (.register protocolVersion token kind))
      (htoken : AuthPolicy.check cfg.subtle s.shared.lists.auth token = .ok ()) :
      PassesRegister (.handler i (.received (.stream r)))

/-- Call `i` is admitted by the rate limiter and, when there is a limit, recorded. -/
inductive PassesRate : Label → Prop
  | mk {h : Handler} {kind : TunnelKind} {now : Nat} (hget : s.handlers[i]? = some h)
      (hpc : h.pc = .rateLimiting kind)
      (hadmitted : (checkAndRecord cfg s.shared.rates h.clientIp now).1 = true)
      (hrecorded : cfg.rateLimit ≠ 0 → ∃ s' earlier,
        s.step cfg (.handler i (.instant now)) = some s' ∧
        s'.shared.rates.lookup h.clientIp = some (earlier ++ [now])) :
      PassesRate (.handler i (.instant now))

/-- Call `i` is refused, or gives up, at one of the gates. -/
inductive FailsGate : Label → Prop
  | denied {h : Handler} {entries : List Cidr} (hget : s.handlers[i]? = some h)
      (hpc : h.pc = .start) (hlist : s.shared.lists.denylist = some entries)
      (hdenied : isDenied entries h.client = true) :
      FailsGate (.handler i .proceed)
  | unread {h : Handler} {read : RegisterRead} (hget : s.handlers[i]? = some h)
      (hpc : h.pc = .awaitRegister)
      (hread : ∀ r, read = .stream r → ∀ version token kind,
        (readFrame r).1 ≠ .ok (.register version token kind)) :
      FailsGate (.handler i (.received read))
  | version {h : Handler} {r : ByteSource} {version : UInt8} {token : Option String}
      {kind : TunnelKind} (hget : s.handlers[i]? = some h) (hpc : h.pc = .awaitRegister)
      (hframe : (readFrame r).1 = .ok (.register version token kind))
      (hversion : version ≠ protocolVersion) :
      FailsGate (.handler i (.received (.stream r)))
  | token {h : Handler} {r : ByteSource} {token : Option String} {kind : TunnelKind}
      {e : AuthError} (hget : s.handlers[i]? = some h) (hpc : h.pc = .awaitRegister)
      (hframe : (readFrame r).1 = .ok (.register protocolVersion token kind))
      (htoken : AuthPolicy.check cfg.subtle s.shared.lists.auth token = .error e) :
      FailsGate (.handler i (.received (.stream r)))
  | rate {h : Handler} {kind : TunnelKind} {now : Nat} (hget : s.handlers[i]? = some h)
      (hpc : h.pc = .rateLimiting kind)
      (hlimited : (checkAndRecord cfg s.shared.rates h.clientIp now).1 = false) :
      FailsGate (.handler i (.instant now))

/-- A step of call `i` that changes one of the shared maps. -/
inductive ChangesMaps : Label → Prop
  | mk {input : Input} {s' : System} (hstep : s.step cfg (.handler i input) = some s')
      (hchanged : s'.shared.tunnels ≠ s.shared.tunnels ∨ s'.shared.tcpPorts ≠ s.shared.tcpPorts ∨
        s'.shared.customDomains ≠ s.shared.customDomains) :
      ChangesMaps (.handler i input)

end Gates

/-- Call `i` has all gates behind it. -/
structure Admitted (cfg : Config) (lists : Lists) (labels : List Label) (i : MuxId) : Prop where
  denylist : Occurred (System.step cfg) (PassesDenylist i) (System.initial lists) labels
  register : Occurred (System.step cfg) (PassesRegister cfg i) (System.initial lists) labels
  rate : Occurred (System.step cfg) (PassesRate cfg i) (System.initial lists) labels

/-- How many gates a call has behind it. Where it stands with a refusal, or has
returned, nothing is said. -/
def Pc.gatesPassed : Pc → Nat
  | .start | .refusing _ | .returned _ => 0
  | .awaitRegister => 1
  | .rateLimiting _ => 2
  | _ => 3

theorem checkAndRecord_recorded {cfg : Config} {rates : RateTable} {ip : String} {now : Nat}
    (hlimit : cfg.rateLimit ≠ 0) (h : (checkAndRecord cfg rates ip now).1 = true) :
    ∃ earlier, (checkAndRecord cfg rates ip now).2.lookup ip = some (earlier ++ [now]) := by
  simp only [checkAndRecord, if_neg hlimit] at h ⊢
  split at h
  · cases h
  · rename_i hroom
    rw [if_neg hroom]
    exact ⟨_, AList.lookup_insert _⟩

section Step

variable {cfg : Config} {s s' : System} {i : MuxId} {h h' : Handler} {sh' : Shared}
  {input : Input}

/-- What a step means for the gates: one is passed, or none is. -/
inductive GateStep (cfg : Config) (s : System) (i : MuxId) (h h' : Handler) (input : Input) :
    Prop
  | kept (hgates : h'.pc.gatesPassed ≤ h.pc.gatesPassed)
  | denylist (hgates : h'.pc.gatesPassed = 1) (hpass : PassesDenylist i s (.handler i input))
  | register (hpc : h.pc.gatesPassed = 1) (hgates : h'.pc.gatesPassed = 2)
      (hpass : PassesRegister cfg i s (.handler i input))
  | rate (hpc : h.pc.gatesPassed = 2) (hpass : PassesRate cfg i s (.handler i input))

theorem gateStep_start (hget : s.handlers[i]? = some h) (hpc : h.pc = .start)
    (hstep : h.step cfg i s.shared input = some (h', sh')) : GateStep cfg s i h h' input := by
  cases input with
  | proceed =>
      simp only [Handler.step, hpc] at hstep
      split at hstep
      · rename_i entries hlist
        split at hstep
        · cases hstep
          exact .kept (Nat.zero_le _)
        · rename_i hdenied
          cases hstep
          refine .denylist rfl (.mk hget hpc ?_)
          intro entries' hlist'
          rw [hlist, Option.some.injEq] at hlist'
          rw [← hlist']
          simpa using hdenied
      · rename_i hlist
        cases hstep
        refine .denylist rfl (.mk hget hpc ?_)
        intro entries hlist'
        rw [hlist] at hlist'
        cases hlist'
  | _ => simp [Handler.step, hpc] at hstep

theorem gateStep_awaitRegister (hget : s.handlers[i]? = some h) (hpc : h.pc = .awaitRegister)
    (hstep : h.step cfg i s.shared input = some (h', sh')) : GateStep cfg s i h h' input := by
  cases input with
  | received read =>
      simp only [Handler.step, hpc, Option.some.injEq, Prod.mk.injEq] at hstep
      obtain ⟨rfl, -⟩ := hstep
      cases read with
      | stream r =>
          simp only [afterRegister]
          split
          · exact .kept (Nat.zero_le _)
          · rename_i version token kind hframe
            split
            · exact .kept (Nat.zero_le _)
            · rename_i hversion
              obtain rfl := not_not.mp hversion
              split
              · exact .kept (Nat.zero_le _)
              · rename_i htoken
                exact .register (by rw [hpc]; rfl) rfl (.mk hget hpc hframe htoken)
          · exact .kept (Nat.zero_le _)
      | _ => exact .kept (Nat.zero_le _)
  | _ => simp [Handler.step, hpc] at hstep

theorem gateStep_rateLimiting {kind : TunnelKind} (hget : s.handlers[i]? = some h)
    (hpc : h.pc = .rateLimiting kind)
    (hstep : h.step cfg i s.shared input = some (h', sh')) : GateStep cfg s i h h' input := by
  cases input with
  | instant now =>
      have hrelay : s.step cfg (.handler i (.instant now)) = some { s with
          shared := sh', handlers := s.handlers.set i h' } := by
        simp [System.step, hget, hstep]
      simp only [Handler.step, hpc, Option.some.injEq, Prod.mk.injEq] at hstep
      obtain ⟨rfl, rfl⟩ := hstep
      split
      · rename_i hadmitted
        refine .rate (by rw [hpc]; rfl) (.mk hget hpc hadmitted ?_)
        intro hlimit
        obtain ⟨earlier, hearlier⟩ := checkAndRecord_recorded hlimit hadmitted
        exact ⟨_, earlier, hrelay, hearlier⟩
      · exact .kept (Nat.zero_le _)
  | _ => simp [Handler.step, hpc] at hstep

theorem Pc.gatesPassed_le (pc : Pc) : pc.gatesPassed ≤ 3 := by
  unfold Pc.gatesPassed
  split <;> decide

theorem Handler.step_gate (hget : s.handlers[i]? = some h)
    (hstep : h.step cfg i s.shared input = some (h', sh')) : GateStep cfg s i h h' input := by
  have hnot := (Handler.step_cases hstep).not_returned
  cases hpc : h.pc with
  | start => exact gateStep_start hget hpc hstep
  | awaitRegister => exact gateStep_awaitRegister hget hpc hstep
  | rateLimiting kind => exact gateStep_rateLimiting hget hpc hstep
  | refusing reply =>
      cases Handler.step_cases hstep with
      | refused => exact .kept (Nat.zero_le _)
      | _ => simp_all [Pc.Early, Pc.Searching, Pc.binding]
  | returned result =>
      rw [hpc] at hnot
      cases hnot
  | _ =>
      refine .kept ?_
      rw [hpc]
      exact Pc.gatesPassed_le _

end Step

section History

variable {cfg : Config} {lists : Lists} {labels : List Label} {s s' : System} {i : MuxId}
  {h : Handler}

/-- The gates that a call has behind it were passed in the run. -/
structure GatesBehind (cfg : Config) (lists : Lists) (labels : List Label) (i : MuxId)
    (n : Nat) : Prop where
  denylist : 1 ≤ n → Occurred (System.step cfg) (PassesDenylist i) (System.initial lists) labels
  register : 2 ≤ n → Occurred (System.step cfg) (PassesRegister cfg i) (System.initial lists) labels
  rate : 3 ≤ n → Occurred (System.step cfg) (PassesRate cfg i) (System.initial lists) labels

theorem GatesBehind.snoc {n m : Nat} (hn : GatesBehind cfg lists labels i n) (hmn : m ≤ n)
    (a : Label) : GatesBehind cfg lists (labels ++ [a]) i m where
  denylist := fun hm => (hn.denylist (hm.trans hmn)).snoc a
  register := fun hm => (hn.register (hm.trans hmn)).snoc a
  rate := fun hm => (hn.rate (hm.trans hmn)).snoc a

theorem gatesBehind_reached (hrun : FreeRun (System.step cfg) (System.initial lists) labels s)
    (hget : s.handlers[i]? = some h) :
    GatesBehind cfg lists labels i h.pc.gatesPassed := by
  induction hrun generalizing h with
  | nil => simp [System.initial] at hget
  | @snoc labels t u a hinit _ hlast ih =>
      cases System.handler_origin hlast hget with
      | same _ hold => exact (ih hold).snoc le_rfl a
      | fresh _ hg =>
          subst hg
          exact ⟨by rintro ⟨⟩, by rintro ⟨⟩, by rintro ⟨⟩⟩
      | @own g input hlabel hold hown =>
          subst hlabel
          have hg := ih hold
          cases Handler.step_gate hold hown with
          | kept hgates => exact hg.snoc hgates _
          | denylist hgates hpass =>
              rw [hgates]
              exact ⟨fun _ => hinit.occurred_last hpass, by omega, by omega⟩
          | register hpc hgates hpass =>
              rw [hpc] at hg
              rw [hgates]
              exact ⟨fun _ => (hg.denylist le_rfl).snoc _,
                fun _ => hinit.occurred_last hpass, by omega⟩
          | rate hpc hpass =>
              rw [hpc] at hg
              exact ⟨fun _ => (hg.denylist (by omega)).snoc _,
                fun _ => (hg.register le_rfl).snoc _, fun _ => hinit.occurred_last hpass⟩

theorem admitted_of_gatesPassed
    (hrun : FreeRun (System.step cfg) (System.initial lists) labels s)
    (hget : s.handlers[i]? = some h) (hpc : h.pc.gatesPassed = 3) :
    Admitted cfg lists labels i := by
  have hgates := gatesBehind_reached hrun hget
  rw [hpc] at hgates
  exact ⟨hgates.denylist (by omega), hgates.register (by omega), hgates.rate le_rfl⟩

end History

/-- A call that has put something in the shared maps, or taken it back again. -/
def Pc.Touched (pc : Pc) : Prop := pc.endpoint.isSome ∨ pc = .returned (.ok ())

/-- A call that ends with nothing registered. -/
def Pc.Rejected : Pc → Prop
  | .refusing _ => True
  | .returned (.error (.announce _ _)) => False
  | .returned (.error _) => True
  | _ => False

section Rejection

variable {cfg : Config} {i : MuxId} {sh sh' : Shared} {h h' : Handler} {input : Input}

theorem HandlerStep.touched_or_unchanged (hstep : HandlerStep cfg i sh h input h' sh') :
    h'.pc.Touched ∨ sh'.tunnels = sh.tunnels ∧ sh'.tcpPorts = sh.tcpPorts ∧
      h'.pc.endpoint = h.pc.endpoint := by
  cases hstep.registry with
  | unchanged htunnels hports hendpoint => exact .inr ⟨htunnels, hports, hendpoint⟩
  | bound _ _ hpc' => exact .inl (.inl (by rw [hpc']; rfl))
  | insertedHttp _ hpc' => exact .inl (.inl (by rw [hpc']; rfl))
  | insertedPort _ hpc' => exact .inl (.inl (by rw [hpc']; rfl))
  | insertedTcp _ hpc' => exact .inl (.inl (by rw [hpc']; rfl))
  | removedPort _ hpc' => exact .inl (.inl (by rw [hpc']; rfl))
  | removedTunnel _ hpc' => exact .inl (.inr hpc')

theorem HandlerStep.touched (hstep : HandlerStep cfg i sh h input h' sh')
    (hpc : h.pc.Touched) : h'.pc.Touched := by
  have hnot := hstep.not_returned
  rcases hstep.touched_or_unchanged with htouched | ⟨-, -, hendpoint⟩
  · exact htouched
  · rcases hpc with hpc | hpc
    · left
      rw [hendpoint]
      exact hpc
    · rw [hpc] at hnot
      cases hnot

theorem HandlerStep.touched_of_changed (hstep : HandlerStep cfg i sh h input h' sh')
    (hchanged : sh'.tunnels ≠ sh.tunnels ∨ sh'.tcpPorts ≠ sh.tcpPorts ∨
      sh'.customDomains ≠ sh.customDomains) : h'.pc.Touched := by
  rcases hstep.touched_or_unchanged with htouched | ⟨htunnels, hports, -⟩
  · exact htouched
  · rcases hchanged with hchanged | hchanged | hchanged
    · exact absurd htunnels hchanged
    · exact absurd hports hchanged
    · exact absurd hstep.customDomains hchanged

theorem Pc.Rejected.not_touched {pc : Pc} (hpc : pc.Rejected) : ¬ pc.Touched := by
  rintro (hendpoint | rfl)
  · unfold Pc.Rejected at hpc
    split at hpc
    · cases hendpoint
    · exact hpc
    · rename_i e hannounce
      cases e <;> first | exact hannounce _ _ rfl | cases hendpoint
    · exact hpc
  · exact hpc

theorem HandlerStep.rejected (hstep : HandlerStep cfg i sh h input h' sh')
    (hpc : h.pc.Rejected) : h'.pc.Rejected := by
  have hnot := hstep.not_returned
  cases hat : h.pc with
  | refusing reply =>
      cases hstep with
      | refused => exact trivial
      | _ => simp_all [Pc.Early, Pc.Searching, Pc.binding]
  | returned result =>
      rw [hat] at hnot
      cases hnot
  | _ =>
      rw [hat] at hpc
      exact hpc.elim

end Rejection

section Failure

variable {cfg : Config} {lists : Lists} {labels : List Label} {s s' : System} {i : MuxId}
  {label : Label}

theorem afterRegister_unread (cfg : Config) (lists : Lists) {read : RegisterRead}
    (hread : ∀ r, read = .stream r → ∀ version token kind,
      (readFrame r).1 ≠ .ok (.register version token kind)) :
    (afterRegister cfg lists read).Rejected := by
  cases read with
  | stream r =>
      simp only [afterRegister]
      split
      · trivial
      · rename_i hframe
        exact absurd hframe (hread r rfl _ _ _)
      · trivial
  | _ => trivial

theorem rejected_of_goto {input : Input} {h : Handler} {pc : Pc}
    (hget : s.handlers[i]? = some h) (htouched : ¬ h.pc.Touched) (hrejected : pc.Rejected)
    (hown : ∀ h' sh', h.step cfg i s.shared input = some (h', sh') → h' = h.goto pc)
    (hstep : s.step cfg (.handler i input) = some s') :
    s.At (fun h => ¬ h.pc.Touched) i ∧ s'.At (fun h => h.pc.Rejected) i :=
  ⟨⟨h, hget, htouched⟩, ⟨h.goto pc, System.handler_goto hget hstep hown, hrejected⟩⟩

theorem FailsGate.rejected (hfails : FailsGate cfg i s label)
    (hstep : s.step cfg label = some s') :
    s.At (fun h => ¬ h.pc.Touched) i ∧ s'.At (fun h => h.pc.Rejected) i := by
  cases hfails with
  | denied hget hpc hlist hdenied =>
      have hrejected : (Pc.returned (.error .denylisted)).Rejected := trivial
      refine rejected_of_goto hget (by simp [hpc, Pc.Touched, Pc.endpoint]) hrejected ?_ hstep
      simp [Handler.step, hpc, hlist, hdenied]
  | unread hget hpc hread =>
      have hrejected := afterRegister_unread cfg s.shared.lists hread
      refine rejected_of_goto hget (by simp [hpc, Pc.Touched, Pc.endpoint]) hrejected ?_ hstep
      simp [Handler.step, hpc]
  | @version _ _ version _ _ hget hpc hframe hversion =>
      have hrejected : (Pc.refusing (versionRefusal version)).Rejected := trivial
      refine rejected_of_goto hget (by simp [hpc, Pc.Touched, Pc.endpoint]) hrejected ?_ hstep
      simp [Handler.step, hpc, afterRegister, hframe, hversion]
  | @token _ _ _ _ e hget hpc hframe htoken =>
      have hrejected : (Pc.refusing (authRefusal e)).Rejected := trivial
      refine rejected_of_goto hget (by simp [hpc, Pc.Touched, Pc.endpoint]) hrejected ?_ hstep
      simp [Handler.step, hpc, afterRegister, hframe, htoken]
  | rate hget hpc hlimited =>
      have hrejected : (Pc.refusing rateRefusal).Rejected := trivial
      refine rejected_of_goto hget (by simp [hpc, Pc.Touched, Pc.endpoint]) hrejected ?_ hstep
      simp [Handler.step, hpc, hlimited]

theorem ChangesMaps.touched (hchanges : ChangesMaps cfg i s label)
    (hstep : s.step cfg label = some s') : s'.At (fun h => h.pc.Touched) i := by
  cases hchanges with
  | mk hstep' hchanged =>
      obtain rfl := Option.some.inj (hstep'.symm.trans hstep)
      obtain ⟨h, h', sh', hget, hhandler, rfl⟩ := System.handler_cases hstep
      have hlt : i < s.handlers.length := (List.getElem?_eq_some_iff.mp hget).1
      exact ⟨h', List.getElem?_set_self hlt, hhandler.touched_of_changed hchanged⟩

theorem rejected_not_touched (hrejected : s.At (fun h => h.pc.Rejected) i)
    (htouched : s.At (fun h => h.pc.Touched) i) : False := by
  obtain ⟨h, hget, hpc⟩ := hrejected
  obtain ⟨g, hget', hpc'⟩ := htouched
  obtain rfl := Option.some.inj (hget.symm.trans hget')
  exact hpc.not_touched hpc'

/-- A call that fails at a gate changes no map, before or after; a call that has
changed one has no gate ahead. -/
theorem failsGate_frame (hrun : FreeRun (System.step cfg) (System.initial lists) labels s) :
    (Occurred (System.step cfg) (FailsGate cfg i) (System.initial lists) labels →
      s.At (fun h => h.pc.Rejected) i ∧
      ¬ Occurred (System.step cfg) (ChangesMaps cfg i) (System.initial lists) labels) ∧
    (Occurred (System.step cfg) (ChangesMaps cfg i) (System.initial lists) labels →
      s.At (fun h => h.pc.Touched) i) := by
  induction hrun with
  | nil => exact ⟨fun h => absurd h not_occurred_nil, fun h => absurd h not_occurred_nil⟩
  | @snoc labels t u a hinit _ hlast ih =>
      obtain ⟨ihfails, ihchanges⟩ := ih
      simp only [hinit.occurred_snoc_iff]
      have htouched : t.At (fun h => h.pc.Touched) i → u.At (fun h => h.pc.Touched) i :=
        fun ht => ht.step hlast fun _ _ _ _ _ _ hhandler => hhandler.touched
      constructor
      · intro hfails
        have hrejected : u.At (fun h => h.pc.Rejected) i := by
          rcases hfails with hbefore | hnow
          · exact (ihfails hbefore).1.step hlast fun _ _ _ _ _ _ hhandler => hhandler.rejected
          · exact (hnow.rejected hlast).2
        refine ⟨hrejected, ?_⟩
        rintro (hbefore | hnow)
        · exact rejected_not_touched hrejected (htouched (ihchanges hbefore))
        · exact rejected_not_touched hrejected (hnow.touched hlast)
      · rintro (hbefore | hnow)
        · exact htouched (ihchanges hbefore)
        · exact hnow.touched hlast

end Failure

section Insertion

variable {cfg : Config} {lists : Lists} {labels : List Label} {s s' : System} {label : Label}
  {k : String} {e : TunnelEntry}

theorem inserted_by_call (hwf : s.WellFormed) (hstep : s.step cfg label = some s')
    (hnew : s'.shared.tunnels.lookup k = some e) (hold : s.shared.tunnels.lookup k ≠ some e) :
    ∃ i input h, label = .handler i input ∧ s.handlers[i]? = some h ∧ e.mux = i ∧
      h.pc.gatesPassed = 3 := by
  cases System.step_cases hstep with
  | connected client => exact absurd hnew hold
  | @handled i input h _ _ hget hhandler =>
      cases hhandler.tunnels with
      | unchanged htunnels => exact absurd (htunnels ▸ hnew) hold
      | insertedHttp hpc _ hsh =>
          subst hsh
          rcases lookup_insertTunnel hnew with ⟨-, rfl⟩ | ⟨-, hsame⟩
          · obtain ⟨hmux, -, -⟩ := (hwf i h hget).pending _ (by rw [hpc]; rfl)
            exact ⟨i, input, h, rfl, hget, hmux, by rw [hpc]; rfl⟩
          · exact absurd hsame hold
      | insertedTcp hpc hmux hsh =>
          subst hsh
          rcases lookup_insertTunnel hnew with ⟨-, rfl⟩ | ⟨-, hsame⟩
          · exact ⟨i, input, h, rfl, hget, hmux, by rw [hpc]; rfl⟩
          · exact absurd hsame hold
      | removed _ hsh =>
          subst hsh
          exact absurd (lookup_removeTunnel hnew).2 hold
  | evicted _ hevict => exact absurd (hevict.lookup hnew) hold
  | quiet hquiet => exact absurd (hquiet.tunnels ▸ hnew) hold

end Insertion

namespace AdminState

variable {adm : Admin} {env : AdminEnv} {s : AdminState} {key : String}

theorem holder_onTunnel {id : String} {body : TunnelEntry → Reply × AdminState}
    (h : ∀ entry, s.shared.tunnels.lookup id = some entry →
      (body entry).2.shared.holder key = s.shared.holder key) :
    (s.onTunnel id body).2.shared.holder key = s.shared.holder key := by
  unfold onTunnel
  split
  · rename_i entry hentry
    exact h entry hentry
  · rfl

theorem holder_setEntry {id : String} {entry entry' : TunnelEntry}
    (h : s.shared.tunnels.lookup id = some entry) (hmux : entry'.mux = entry.mux) :
    (s.setEntry id entry').shared.holder key = s.shared.holder key := by
  by_cases hkey : key = id
  · subst hkey
    simp [setEntry, Shared.holder, Shared.insertTunnel, h, hmux]
  · exact Shared.holder_insertTunnel_ne entry' hkey

theorem holder_guarded {headers : List (String × List UInt8)} {body : Reply × AdminState}
    (h : body.2.shared.holder key = s.shared.holder key) :
    (s.guarded adm headers body).2.shared.holder key = s.shared.holder key := by
  unfold guarded
  split
  · rfl
  · exact h

theorem holder_foldl_signal (muxes : List MuxId) (sh : Shared) (key : String) :
    (muxes.foldl Shared.signal sh).holder key = sh.holder key := by
  induction muxes generalizing sh with
  | nil => rfl
  | cons mux muxes ih =>
      rw [List.foldl_cons, ih]
      rfl

/-- No admin request puts a session under a key. -/
theorem holder_handle {headers : List (String × List UInt8)} (call : ApiCall) :
    (s.handle adm env headers call).2.shared.holder key = s.shared.holder key := by
  cases call with
  | setDdosConfig id req =>
      exact holder_guarded (holder_onTunnel fun entry h => holder_setEntry h rfl)
  | adminPauseTunnel id =>
      exact holder_guarded (holder_onTunnel fun entry h => holder_setEntry h rfl)
  | adminResumeTunnel id =>
      exact holder_guarded (holder_onTunnel fun entry h => holder_setEntry h rfl)
  | addBackend id req =>
      refine holder_guarded ?_
      unfold addBackend
      split
      · rfl
      · exact holder_onTunnel fun entry h => holder_setEntry h rfl
  | removeBackend id backendId =>
      refine holder_guarded (holder_onTunnel fun entry h => ?_)
      dsimp only
      split
      · rfl
      · exact holder_setEntry h rfl
  | forceHealthCheck id backendId =>
      refine holder_guarded (holder_onTunnel fun entry h => ?_)
      split
      · rfl
      · exact holder_setEntry h rfl
  | adminBulkDisconnect clientIp =>
      refine holder_guarded ?_
      unfold adminBulkDisconnect
      dsimp only
      split
      · rfl
      · split
        · rfl
        · exact holder_foldl_signal _ _ key
  | adminDisconnectTunnel id => exact holder_guarded (holder_onTunnel fun entry _ => rfl)
  | setCustomDomain id domain =>
      refine holder_guarded ?_
      unfold setCustomDomain
      dsimp only
      split
      · rfl
      · split
        · rfl
        · split <;> rfl
  | removeCustomDomain id => exact holder_guarded rfl
  | createRoute req =>
      simp only [handle, createRoute]
      split
      · rfl
      · split <;> rfl
  | updateRoute id req =>
      simp only [handle, updateRoute]
      split <;> rfl
  | getSeamlessTunnel id | getDdosConfig id | getTunnelRequests id | adminTunnelStats id
  | listBackends id => exact holder_guarded (holder_onTunnel fun entry _ => rfl)
  | listSeamlessTunnels | statsHistoryHandler | adminAuditQuery | listCustomDomains
  | getLogs => exact holder_guarded rfl
  | cfListTunnels | cfCreateTunnel | cfDeleteTunnel | cfTunnelToken | cfListZones | cfListDns
  | cfCreateDns | cfUpdateDns | cfDeleteDns =>
      simp only [handle, cfForward]
      split
      · rfl
      · split <;> rfl
  | _ => rfl

end AdminState

/-- Admission control: in every run, an entry enters the registry only through a
call that has passed all gates before; a call that fails at a gate changes none of
the shared maps; and no admin request enters a session by itself. -/
theorem admission_complete {cfg : Config} {lists : Lists} {labels : List Label} {s : System}
    (hrun : FreeRun (System.step cfg) (System.initial lists) labels s) :
    (∀ label s' k e, s.step cfg label = some s' → s'.shared.tunnels.lookup k = some e →
      s.shared.tunnels.lookup k ≠ some e →
      ∃ i input, label = .handler i input ∧ e.mux = i ∧ Admitted cfg lists labels i) ∧
    (∀ i, Occurred (System.step cfg) (FailsGate cfg i) (System.initial lists) labels →
      ¬ Occurred (System.step cfg) (ChangesMaps cfg i) (System.initial lists) labels) ∧
    ∀ (adm : Admin) (env : AdminEnv) (store : Store) headers call key,
      (AdminState.handle adm env ⟨store, s.shared⟩ headers call).2.shared.holder key =
        s.shared.holder key := by
  refine ⟨?_, fun i hfails => ((failsGate_frame hrun).1 hfails).2, ?_⟩
  · intro label s' k e hstep hnew hold
    obtain ⟨i, input, h, hlabel, hget, hmux, hgates⟩ :=
      inserted_by_call (System.wellFormed_reached hrun) hstep hnew hold
    exact ⟨i, input, hlabel, hmux, admitted_of_gatesPassed hrun hget hgates⟩
  · intro adm env store headers call key
    exact AdminState.holder_handle call

/-- A client that the deny list does not name, just before its entry is inserted. -/
def admittedRun : List Label :=
  .connect documentationIp :: admission 0 (.http (some "app")) ++ [.handler 0 (.named "" 0 0)]

theorem admission_complete_http :
    ∃ s s', FreeRun (System.step (.unlimited "relay.test")) (System.initial .disabled)
        admittedRun s ∧
      s.step (.unlimited "relay.test") (.handler 0 .proceed) = some s' ∧
      s'.shared.holder "app" = some 0 ∧
      Admitted (.unlimited "relay.test") .disabled admittedRun 0 := by
  have hexec : (exec (System.step (.unlimited "relay.test")) (System.initial .disabled)
      admittedRun).map (fun s => (s.shared.holder "app",
        (s.step (.unlimited "relay.test") (.handler 0 .proceed)).map fun s' =>
          s'.shared.holder "app")) = some (none, some (some 0)) := by
    decide +kernel
  obtain ⟨s, hrun, hfacts⟩ := exists_freeRun hexec
  simp only [Prod.mk.injEq] at hfacts
  obtain ⟨hfree, hnext⟩ := hfacts
  obtain ⟨s', hstep, hholder⟩ := Option.map_eq_some_iff.mp hnext
  obtain ⟨e, hlookup, hmux⟩ := Shared.holder_eq_some.mp hholder
  have hold : s.shared.tunnels.lookup "app" ≠ some e := by
    rw [Shared.holder_eq_none.mp hfree]
    simp
  obtain ⟨i, input, -, hi, hadmitted⟩ :=
    (admission_complete hrun).1 _ s' "app" e hstep hlookup hold
  rw [hmux] at hi
  subst hi
  exact ⟨s, s', hrun, hstep, hholder, hadmitted⟩

end Seamless.Relay
