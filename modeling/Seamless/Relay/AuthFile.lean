import Mathlib.Data.Finset.Basic
import Seamless.Relay.System

/-!
The token file: `load_token_set`, `from_file` and `reload_from_file`, and what
`check` accepts after any sequence of reloads.
-/

namespace Seamless.Relay

open Seamless.Common
open Seamless.Library
open Seamless.Library.Text

/-- What is found under the path of the token file: its bytes, or `none` when it
cannot be read. -/
abbrev TokenFile := Option (List UInt8)

inductive LoadError where
  | unreadable
  | notUtf8
  | noTokens
  -- `reload_from_file` on a policy without a token set.
  | openPolicy
  deriving Repr, DecidableEq

/-- `std::fs::read_to_string`. -/
def readToString : TokenFile → Except LoadError String
  | none => .error .unreadable
  | some bytes =>
      match fromUtf8 bytes with
      | some text => .ok text
      | none => .error .notUtf8

/-- The token on a line; blank lines and comments hold none. -/
def tokenOf (line : List Char) : Option String :=
  let line := trim line
  if line.isEmpty || line.head? == some '#' then none else some (String.ofList line)

def insertToken (set : Finset String) (line : List Char) : Finset String :=
  match tokenOf line with
  | some token => insert token set
  | none => set

def loadTokenSet (file : TokenFile) : Except LoadError (Finset String) :=
  match readToString file with
  | .error e => .error e
  | .ok text =>
      let set := (lines text.toList).foldl insertToken ∅
      if set = ∅ then .error .noTokens else .ok set

/-- The field `allowed` of a policy; `none` is an open relay. -/
abbrev Allowed := Option (Finset String)

def AuthPolicy.fromFile (file : TokenFile) : Except LoadError Allowed :=
  (loadTokenSet file).map some

/-- The result of a reload, and the policy after it. -/
def AuthPolicy.reloadFromFile (allowed : Allowed) (file : TokenFile) :
    Except LoadError Unit × Allowed :=
  match allowed with
  | none => (.error .openPolicy, none)
  | some set =>
      match loadTokenSet file with
      | .error e => (.error e, some set)
      | .ok newSet => (.ok (), some newSet)

/-- The policy after a sequence of reloads, each with what the file then held. -/
def AuthPolicy.reloads (allowed : Allowed) (files : List TokenFile) : Allowed :=
  files.foldl (fun allowed file => (reloadFromFile allowed file).2) allowed

/-- The elements of a set in the order in which its iterator yields them. -/
structure Enumerates (candidates : List String) (set : Finset String) : Prop where
  nodup : candidates.Nodup
  mem_iff : ∀ t, t ∈ candidates ↔ t ∈ set

/-- A line that counts: not blank, and not a comment. -/
structure TokenLine (text : String) (line : List Char) : Prop where
  mem : line ∈ lines text.toList
  nonblank : trim line ≠ []
  uncommented : (trim line).head? ≠ some '#'

section Check

variable (subtle : ConstantTimeEq)

theorem hit_turn (hit : UInt8) (c t : List UInt8) (hhit : hit = 0 ∨ hit = 1) :
    (hit ||| (subtle.ctEq (c.take (min c.length t.length)) (t.take (min c.length t.length)) &&&
      if c.length = t.length then 1 else 0)) = if c = t then 1 else hit := by
  by_cases heq : c = t
  · subst heq
    rcases hhit with rfl | rfl <;> simp [subtle.ctEq_eq]
  · rw [if_neg heq]
    by_cases hlength : c.length = t.length
    · have hne : subtle.ctEq (c.take (min c.length t.length)) (t.take (min c.length t.length)) = 0 := by
        rw [hlength, Nat.min_self, ← hlength, List.take_length, hlength, List.take_length,
          subtle.ctEq_eq, if_neg heq]
      simp [hne]
    · simp [hlength]

theorem hit_loop (candidates : List String) (t : String) (hit : UInt8)
    (hhit : hit = 0 ∨ hit = 1) :
    candidates.foldl (fun (hit : UInt8) candidate =>
        hit ||| (subtle.ctEq
          ((utf8 candidate).take (min (utf8 candidate).length (utf8 t).length))
          ((utf8 t).take (min (utf8 candidate).length (utf8 t).length)) &&&
          if (utf8 candidate).length = (utf8 t).length then 1 else 0)) hit =
      if t ∈ candidates then 1 else hit := by
  induction candidates generalizing hit with
  | nil => simp
  | cons c candidates ih =>
      rw [List.foldl_cons, hit_turn subtle hit _ _ hhit]
      by_cases hc : utf8 c = utf8 t
      · obtain rfl := utf8_injective hc
        rw [if_pos rfl, ih 1 (.inr rfl)]
        simp
      · have hne : t ≠ c := fun h => hc (by rw [h])
        rw [if_neg hc, ih hit hhit]
        simp [hne]

/-- The masked loop is membership, whatever order the set is enumerated in. -/
theorem check_eq_membership (candidates : List String) (t : String) :
    AuthPolicy.check subtle (some candidates) (some t) =
      if t ∈ candidates then .ok () else .error .invalid := by
  have hloop := hit_loop subtle candidates t 0 (.inl rfl)
  simp only [AuthPolicy.check]
  rw [hloop]
  by_cases hmem : t ∈ candidates <;> simp [hmem]

end Check

theorem tokenOf_eq_some {line : List Char} {t : String} :
    tokenOf line = some t ↔
      trim line ≠ [] ∧ (trim line).head? ≠ some '#' ∧ t = String.ofList (trim line) := by
  simp only [tokenOf]
  split
  · rename_i hskip
    simp only [Bool.or_eq_true, List.isEmpty_iff, beq_iff_eq] at hskip
    constructor
    · rintro ⟨⟩
    · rintro ⟨hblank, hcomment, -⟩
      exact absurd hskip (not_or.mpr ⟨hblank, hcomment⟩)
  · rename_i hkeep
    simp only [Bool.or_eq_true, List.isEmpty_iff, beq_iff_eq, not_or] at hkeep
    constructor
    · rintro ⟨⟩
      exact ⟨hkeep.1, hkeep.2, rfl⟩
    · rintro ⟨-, -, rfl⟩
      rfl

theorem mem_foldl_insertToken (ls : List (List Char)) (set : Finset String) (t : String) :
    t ∈ ls.foldl insertToken set ↔ t ∈ set ∨ ∃ line ∈ ls, tokenOf line = some t := by
  induction ls generalizing set with
  | nil => simp
  | cons line ls ih =>
      rw [List.foldl_cons, ih]
      simp only [insertToken, List.mem_cons, exists_eq_or_imp]
      cases htoken : tokenOf line with
      | none => simp
      | some token =>
          simp only [Finset.mem_insert, Option.some.injEq]
          constructor
          · rintro ((rfl | hset) | hlater)
            · exact .inr (.inl rfl)
            · exact .inl hset
            · exact .inr (.inr hlater)
          · rintro (hset | rfl | hlater)
            · exact .inl (.inr hset)
            · exact .inl (.inl rfl)
            · exact .inr hlater

theorem loadTokenSet_ok {file : TokenFile} {set : Finset String}
    (h : loadTokenSet file = .ok set) :
    ∃ text, readToString file = .ok text ∧ set.Nonempty ∧
      ∀ t, t ∈ set ↔ ∃ line, TokenLine text line ∧ t = String.ofList (trim line) := by
  unfold loadTokenSet at h
  split at h
  · cases h
  · rename_i text htext
    dsimp only at h
    split at h
    · cases h
    · rename_i hnonempty
      cases h
      refine ⟨text, htext, Finset.nonempty_iff_ne_empty.mpr hnonempty, ?_⟩
      intro t
      rw [mem_foldl_insertToken]
      simp only [Finset.notMem_empty, false_or, tokenOf_eq_some]
      constructor
      · rintro ⟨line, hmem, hblank, hcomment, rfl⟩
        exact ⟨line, ⟨hmem, hblank, hcomment⟩, rfl⟩
      · rintro ⟨line, hline, rfl⟩
        exact ⟨line, hline.mem, hline.nonblank, hline.uncommented, rfl⟩

/-- `text` is what the most recent of `files` that loads holds, and `set` its
tokens. -/
def LastLoaded (files : List TokenFile) (text : String) (set : Finset String) : Prop :=
  ∃ before file after, files = before ++ file :: after ∧ readToString file = .ok text ∧
    loadTokenSet file = .ok set ∧ ∀ f ∈ after, ∃ e, loadTokenSet f = .error e

theorem LastLoaded.snoc_error {files : List TokenFile} {file : TokenFile} {text : String}
    {set : Finset String} {e : LoadError} (h : LastLoaded files text set)
    (hfile : loadTokenSet file = .error e) : LastLoaded (files ++ [file]) text set := by
  obtain ⟨before, last, after, rfl, htext, hset, hafter⟩ := h
  refine ⟨before, last, after ++ [file], by simp, htext, hset, ?_⟩
  intro f hf
  rcases List.mem_append.mp hf with hf | hf
  · exact hafter f hf
  · obtain rfl := List.mem_singleton.mp hf
    exact ⟨e, hfile⟩

theorem lastLoaded_snoc_ok (files : List TokenFile) {file : TokenFile} {set : Finset String}
    (hfile : loadTokenSet file = .ok set) :
    ∃ text, LastLoaded (files ++ [file]) text set := by
  obtain ⟨text, htext, -, -⟩ := loadTokenSet_ok hfile
  exact ⟨text, files, file, [], rfl, htext, hfile, by simp⟩

theorem LastLoaded.tokens {files : List TokenFile} {text : String} {set : Finset String}
    (h : LastLoaded files text set) :
    set.Nonempty ∧
      ∀ t, t ∈ set ↔ ∃ line, TokenLine text line ∧ t = String.ofList (trim line) := by
  obtain ⟨-, file, -, -, htext, hset, -⟩ := h
  obtain ⟨text', htext', hnonempty, hlines⟩ := loadTokenSet_ok hset
  obtain rfl : text' = text := by
    rw [htext] at htext'
    exact (Except.ok.inj htext').symm
  exact ⟨hnonempty, hlines⟩

theorem AuthPolicy.reloads_snoc (allowed : Allowed) (files : List TokenFile)
    (file : TokenFile) :
    reloads allowed (files ++ [file]) = (reloadFromFile (reloads allowed files) file).2 := by
  simp [reloads]

theorem AuthPolicy.reloadFromFile_failed {allowed : Allowed} {file : TokenFile} {e : LoadError}
    (h : (reloadFromFile allowed file).1 = .error e) :
    (reloadFromFile allowed file).2 = allowed := by
  unfold reloadFromFile at h ⊢
  split
  · rfl
  · split
    · rfl
    · rename_i hload
      simp only [hload] at h
      cases h

theorem AuthPolicy.reloads_lastLoaded {first : TokenFile} {set : Finset String}
    (hfirst : loadTokenSet first = .ok set) (files : List TokenFile) :
    ∃ text set', reloads (some set) files = some set' ∧
      LastLoaded (first :: files) text set' := by
  induction files using List.reverseRecOn with
  | nil =>
      obtain ⟨text, hlast⟩ := lastLoaded_snoc_ok [] hfirst
      exact ⟨text, set, rfl, hlast⟩
  | append_singleton files file ih =>
      obtain ⟨text, set', hreloads, hlast⟩ := ih
      rw [reloads_snoc, hreloads]
      cases hload : loadTokenSet file with
      | error e =>
          refine ⟨text, set', by simp [reloadFromFile, hload], ?_⟩
          rw [← List.cons_append]
          exact hlast.snoc_error hload
      | ok newSet =>
          obtain ⟨newText, hnew⟩ := lastLoaded_snoc_ok (first :: files) hload
          exact ⟨newText, newSet, by simp [reloadFromFile, hload], hnew⟩

/-- The list that a relay checks against enumerates the set of the policy. -/
def InForce : Option (List String) → Allowed → Prop
  | none, none => True
  | some candidates, some set => Enumerates candidates set
  | _, _ => False

theorem reloadAuth_inForce {cfg : Config} {s s' : System} {allowed : Allowed}
    {file : TokenFile} {set : Finset String} {tokens : List String}
    (hs : InForce s.shared.lists.auth allowed) (hload : loadTokenSet file = .ok set)
    (htokens : Enumerates tokens set) (hstep : s.step cfg (.reloadAuth tokens) = some s') :
    InForce s'.shared.lists.auth (AuthPolicy.reloadFromFile allowed file).2 := by
  cases hstep
  cases hauth : s.shared.lists.auth with
  | none =>
      cases allowed with
      | none => simpa [hauth, AuthPolicy.reloadFromFile] using hs
      | some set => simp [hauth, InForce] at hs
  | some candidates =>
      cases allowed with
      | none => simp [hauth, InForce] at hs
      | some old => simpa [hauth, AuthPolicy.reloadFromFile, hload, InForce] using htokens

/-- A policy built from a file accepts, after any sequence of reloads, exactly the
tokens of the last version that loaded, and is never open or empty. -/
theorem check_after_reloads (subtle : ConstantTimeEq) {first : TokenFile} {allowed : Allowed}
    (hfirst : AuthPolicy.fromFile first = .ok allowed) (files : List TokenFile) :
    (∃ set text, AuthPolicy.reloads allowed files = some set ∧ set.Nonempty ∧
      LastLoaded (first :: files) text set ∧
      ∀ candidates, Enumerates candidates set →
        AuthPolicy.check subtle (some candidates) none = .error .required ∧
        ∀ t, AuthPolicy.check subtle (some candidates) (some t) = .ok () ↔
          ∃ line, TokenLine text line ∧ utf8 t = utf8 (String.ofList (trim line))) ∧
    (∀ file e, (AuthPolicy.reloadFromFile (AuthPolicy.reloads allowed files) file).1 = .error e →
      (AuthPolicy.reloadFromFile (AuthPolicy.reloads allowed files) file).2 =
        AuthPolicy.reloads allowed files) ∧
    ∀ set candidates, Enumerates candidates set → ∀ t,
      AuthPolicy.check subtle (some candidates) (some t) =
        if t ∈ set then .ok () else .error .invalid := by
  have hmember : ∀ set candidates, Enumerates candidates set → ∀ t,
      AuthPolicy.check subtle (some candidates) (some t) =
        if t ∈ set then .ok () else .error .invalid := by
    intro set candidates hset t
    rw [check_eq_membership]
    simp only [hset.mem_iff]
  refine ⟨?_, fun file e => AuthPolicy.reloadFromFile_failed, hmember⟩
  obtain ⟨set, hset, rfl⟩ : ∃ set, loadTokenSet first = .ok set ∧ allowed = some set := by
    unfold AuthPolicy.fromFile at hfirst
    cases hload : loadTokenSet first with
    | error e =>
        rw [hload] at hfirst
        cases hfirst
    | ok set =>
        rw [hload] at hfirst
        cases hfirst
        exact ⟨set, rfl, rfl⟩
  obtain ⟨text, set', hreloads, hlast⟩ := AuthPolicy.reloads_lastLoaded hset files
  obtain ⟨hnonempty, hlines⟩ := hlast.tokens
  refine ⟨set', text, hreloads, hnonempty, hlast, ?_⟩
  intro candidates hcandidates
  refine ⟨rfl, fun t => ?_⟩
  have hbytes : ∀ line, utf8 t = utf8 (String.ofList (trim line)) ↔
      t = String.ofList (trim line) :=
    fun line => ⟨utf8_injective, fun h => by rw [h]⟩
  simp only [hmember set' candidates hcandidates, hbytes, ← hlines t]
  by_cases hmem : t ∈ set' <;> simp [hmem]

/-- A file that comes to hold only a comment leaves its earlier token in force. -/
theorem check_after_failed_reload :
    ∃ set, AuthPolicy.reloads (some {"tok"}) [some (utf8 "# tok\n")] = some set ∧
      set.Nonempty := by
  obtain ⟨⟨set, -, hset, hnonempty, -⟩, -⟩ :=
    check_after_reloads .plain (show AuthPolicy.fromFile (some (utf8 " tok \n")) = .ok (some {"tok"})
      by decide) [some (utf8 "# tok\n")]
  exact ⟨set, hset, hnonempty⟩

end Seamless.Relay
