import Seamless.Relay.AdminApi
import Seamless.Relay.ExpiryPanics

/-!
The settings page. The API token is shown as an ellipsis and its last four bytes, and a
token that comes back with the ellipsis in front leaves the stored one in place. The cut
is at a byte of the string, whatever its characters are.
-/

namespace Seamless.Relay

open Seamless.Common
open Seamless.Library.Text

/-- The body of the reply of `get_settings`. -/
structure SettingsView where
  cfApiTokenMasked : String
  cfApiTokenSet : Bool
  cfAccountId : String

def maskToken (apiToken : String) : Except Stop String :=
  let bytes := utf8 apiToken
  if 4 < bytes.length then do
    let shown ← slice bytes (bytes.length - 4) bytes.length
    return "…" ++ String.ofList shown
  else if apiToken.isEmpty then return ""
  else return "…"

namespace AdminState

/-- `store.cf.clone().unwrap_or_default()`. -/
def settings (s : AdminState) : CfSettings := s.store.cf.getD ⟨"", ""⟩

def getSettings (s : AdminState) : Except Stop SettingsView := do
  let cf := s.settings
  let masked ← maskToken cf.apiToken
  return ⟨masked, !cf.apiToken.isEmpty, cf.accountId⟩

/-- Some calls of `save_settings`. -/
def savesSettings (s : AdminState) (reqs : List SaveSettingsReq) : AdminState :=
  reqs.foldl (fun s req => (s.saveSettings req).2) s

/-- `get_settings` answers, and saving its answer changes nothing. -/
def SettingsReturn (s : AdminState) : Prop :=
  ∃ view, s.getSettings = .ok view ∧
    (s.saveSettings ⟨some view.cfApiTokenMasked, view.cfAccountId⟩).2.settings = s.settings

end AdminState

/-- The token that a request puts in the place of the stored one. -/
def SaveSettingsReq.newToken (req : SaveSettingsReq) : Option String :=
  req.cfApiToken.filter fun t => !t.isEmpty && t.toList.head? != some '…'

/-- The last token that was put in place, if there was one. -/
def lastToken (reqs : List SaveSettingsReq) : Option String :=
  (reqs.filterMap SaveSettingsReq.newToken).getLast?

/-- The token has at most four bytes, or its last four are characters of their own. -/
def CutsBetweenCharacters (token : String) : Prop :=
  (utf8 token).length ≤ 4 ∨ ∃ front back, token = front ++ back ∧ (utf8 back).length = 4

section Masks

variable {token masked : String}

theorem slice_last_iff {n : Nat} (hn : n ≤ (utf8 token).length) :
    (∃ shown, slice (utf8 token) ((utf8 token).length - n) (utf8 token).length = .ok shown) ↔
      ∃ front back, token = front ++ back ∧ (utf8 back).length = n := by
  constructor
  · rintro ⟨shown, hshown⟩
    obtain ⟨text, ⟨-, htext⟩, -⟩ := slice_eq_ok.mp hshown
    rw [List.take_length] at htext
    have hbytes := utf8_of_fromUtf8 htext
    have hsplit : utf8 token = (utf8 token).take ((utf8 token).length - n) ++ utf8 text := by
      rw [hbytes, List.take_append_drop]
    obtain ⟨front, back, hparts, -, hback⟩ := utf8_split hsplit (isUTF8FirstByte_head text)
    refine ⟨front, back, hparts, ?_⟩
    rw [hback, hbytes, List.length_drop]
    omega
  · rintro ⟨front, back, rfl, hback⟩
    have hstart : (utf8 (front ++ back)).length - n = (utf8 front).length := by
      rw [utf8_append, List.length_append, hback, Nat.add_sub_cancel]
    refine ⟨back.toList, slice_eq_ok.mpr ⟨back, ⟨le_rfl, ?_⟩, rfl⟩⟩
    rw [List.take_length, hstart, utf8_append, List.drop_left, fromUtf8_utf8]

theorem maskToken_ok_iff :
    (∃ masked, maskToken token = .ok masked) ↔ CutsBetweenCharacters token := by
  unfold maskToken CutsBetweenCharacters
  by_cases hlong : 4 < (utf8 token).length
  · rw [or_iff_right (Nat.not_le.mpr hlong), ← slice_last_iff hlong.le]
    simp only [if_pos hlong, bind_eq_ok]
    constructor
    · rintro ⟨masked, shown, hshown, -⟩
      exact ⟨shown, hshown⟩
    · rintro ⟨shown, hshown⟩
      exact ⟨_, shown, hshown, rfl⟩
  · simp only [if_neg hlong]
    refine ⟨fun _ => .inl (Nat.not_lt.mp hlong), fun _ => ?_⟩
    split
    · exact ⟨_, rfl⟩
    · exact ⟨_, rfl⟩

theorem newToken_mask (h : maskToken token = .ok masked) (accountId : String) :
    (⟨some masked, accountId⟩ : SaveSettingsReq).newToken = none := by
  unfold maskToken at h
  dsimp only at h
  split at h
  · obtain ⟨shown, -, hmasked⟩ := bind_eq_ok.mp h
    obtain rfl := Except.ok.inj hmasked
    simp [SaveSettingsReq.newToken]
  · split at h
    · obtain rfl := Except.ok.inj h
      rfl
    · obtain rfl := Except.ok.inj h
      rfl

end Masks

section Saves

variable {s : AdminState} {req : SaveSettingsReq} {reqs : List SaveSettingsReq}

theorem settings_saveSettings (s : AdminState) (req : SaveSettingsReq) :
    (s.saveSettings req).2.settings =
      ⟨req.newToken.getD s.settings.apiToken, AdminState.trimmed req.cfAccountId⟩ := by
  have hexisting : (s.store.cf.map CfSettings.apiToken).getD "" = s.settings.apiToken := by
    unfold AdminState.settings
    cases s.store.cf with
    | none => rfl
    | some cf => rfl
  change s.mergedSettings req = _
  rw [AdminState.mergedSettings, hexisting, SaveSettingsReq.newToken]
  congr 1
  cases req.cfApiToken with
  | none => rfl
  | some token =>
      dsimp only
      split
      · rename_i hnew
        rw [Option.filter_some, if_pos hnew, Option.getD_some]
      · rename_i hmask
        rw [Option.filter_some, if_neg hmask, Option.getD_none]

theorem savesSettings_concat (s : AdminState) (reqs : List SaveSettingsReq)
    (req : SaveSettingsReq) :
    s.savesSettings (reqs ++ [req]) = ((s.savesSettings reqs).saveSettings req).2 := by
  rw [AdminState.savesSettings, List.foldl_append]
  rfl

theorem lastToken_concat (reqs : List SaveSettingsReq) (req : SaveSettingsReq) :
    lastToken (reqs ++ [req]) = req.newToken.or (lastToken reqs) := by
  unfold lastToken
  rw [List.filterMap_append]
  cases hnew : req.newToken with
  | none => simp [hnew]
  | some token => simp [hnew]

theorem settings_savesSettings (hfresh : s.store.cf = none) (reqs : List SaveSettingsReq) :
    (s.savesSettings reqs).settings.apiToken = (lastToken reqs).getD "" ∧
      AdminState.trimmed (s.savesSettings reqs).settings.accountId =
        (s.savesSettings reqs).settings.accountId := by
  induction reqs using List.reverseRecOn with
  | nil =>
      have hnothing : (s.savesSettings []).settings = ⟨"", ""⟩ := by
        change s.store.cf.getD ⟨"", ""⟩ = _
        rw [hfresh, Option.getD_none]
      rw [hnothing]
      exact ⟨rfl, rfl⟩
  | append_singleton reqs req ih =>
      rw [savesSettings_concat, settings_saveSettings, lastToken_concat]
      constructor
      · rw [ih.1]
        cases req.newToken with
        | none => rfl
        | some token => rfl
      · simp [AdminState.trimmed, trim_trim]

theorem settingsReturn_iff
    (htrimmed : AdminState.trimmed s.settings.accountId = s.settings.accountId) :
    s.SettingsReturn ↔ CutsBetweenCharacters s.settings.apiToken := by
  rw [← maskToken_ok_iff]
  constructor
  · rintro ⟨view, hview, -⟩
    obtain ⟨masked, hmasked, -⟩ := bind_eq_ok.mp hview
    exact ⟨masked, hmasked⟩
  · rintro ⟨masked, hmasked⟩
    refine ⟨⟨masked, !s.settings.apiToken.isEmpty, s.settings.accountId⟩, ?_, ?_⟩
    · exact bind_eq_ok.mpr ⟨masked, hmasked, rfl⟩
    · rw [settings_saveSettings, newToken_mask hmasked, Option.getD_none, htrimmed]

end Saves

/-- After any saves the settings come back as they are exactly when the last token that was
put in place can be cut four bytes before its end. -/
theorem maskedSettings_return_iff (routes : List ProxyRoute) (shared : Shared)
    (reqs : List SaveSettingsReq) :
    (AdminState.savesSettings ⟨⟨routes, none⟩, shared⟩ reqs).SettingsReturn ↔
      ∀ token, lastToken reqs = some token → CutsBetweenCharacters token := by
  have hfresh : (⟨⟨routes, none⟩, shared⟩ : AdminState).store.cf = none := rfl
  obtain ⟨htoken, htrimmed⟩ := settings_savesSettings hfresh reqs
  rw [settingsReturn_iff htrimmed, htoken]
  cases lastToken reqs with
  | none =>
      have hempty : CutsBetweenCharacters "" := .inl (by decide)
      simp [hempty]
  | some token => simp

/-- A token of two euro signs, the first of which is cut. -/
theorem euro_token_panics :
    ¬ ∀ (routes : List ProxyRoute) (shared : Shared) (reqs : List SaveSettingsReq),
      (AdminState.savesSettings ⟨⟨routes, none⟩, shared⟩ reqs).SettingsReturn := by
  intro h
  obtain ⟨view, hview, -⟩ := h [] (.initial .disabled) [⟨some "€€", "account"⟩]
  obtain ⟨masked, hmasked, -⟩ := bind_eq_ok.mp hview
  have hpanics : maskToken "€€" = .error .panics := by decide +kernel
  cases hpanics.symm.trans hmasked

end Seamless.Relay
