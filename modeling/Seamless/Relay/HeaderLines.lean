import Seamless.Relay.HttpHead

/-!
The header parsers line by line. Each of them reads the whole buffer as UTF-8, cuts it
at its line breaks and looks at one line after the other; a line break is also a place
at which the bytes of a text may be cut.
-/

namespace Seamless.Relay

open Seamless.Common
open Seamless.Library.Text

/-- The value of a line with this name, up to case. -/
def namedValue (name : String) (line : List Char) : Option (List Char) :=
  match splitAt ':' line with
  | (key, some value) => if eqIgnoreAsciiCase key name.toList then some value else none
  | (_, none) => none

/-- All values that a text gives a name, in the order of its lines. -/
def headerValues (name : String) (text : List Char) : List (List Char) :=
  (splitCrlf text).filterMap (namedValue name)

/-- The test `Upgrade: websocket` of `is_websocket_upgrade`. -/
def upgradesToWebsocket (line : List Char) : Bool :=
  match splitAt ':' line with
  | (name, some value) =>
      eqIgnoreAsciiCase (trim name) "upgrade".toList &&
        eqIgnoreAsciiCase (trim value) "websocket".toList
  | (_, none) => false

/-- The test `Connection: upgrade` of `is_websocket_upgrade`, which looks for the word
anywhere in the value. -/
def upgradesConnection (line : List Char) : Bool :=
  match splitAt ':' line with
  | (name, some value) =>
      eqIgnoreAsciiCase (trim name) "connection".toList &&
        (windowPosition "upgrade".toList ((trim value).map Char.toLower)).isSome
  | (_, none) => false

def isWebsocketUpgrade (head : List UInt8) : Bool :=
  match fromUtf8 head with
  | some s =>
      (splitCrlf s.toList).any upgradesToWebsocket && (splitCrlf s.toList).any upgradesConnection
  | none => false

theorem splitAt_fst_of_none {sep : Char} {line : List Char} (h : (splitAt sep line).2 = none) :
    (splitAt sep line).1 = line := by
  induction line with
  | nil => rfl
  | cons c line ih =>
      rw [splitAt] at h ⊢
      split at h
      · cases h
      · rename_i hne
        rw [if_neg hne]
        simp [ih h]

theorem headerValue_eq_head? (name : String) (text : List Char) :
    headerValue name text = (headerValues name text).head? := by
  rw [headerValues, List.head?_filterMap]
  rfl

@[simp] theorem namedValue_nil (name : String) : namedValue name [] = none := rfl

@[simp] theorem upgradesToWebsocket_nil : upgradesToWebsocket [] = false := rfl

@[simp] theorem upgradesConnection_nil : upgradesConnection [] = false := rfl

theorem namedValue_eq_some_iff {name : String} {line value : List Char} :
    namedValue name line = some value ↔
      ∃ key, line = key ++ ':' :: value ∧ ':' ∉ key ∧
        eqIgnoreAsciiCase key name.toList = true := by
  unfold namedValue
  constructor
  · intro h
    split at h
    · rename_i key value' hsplit
      split at h
      · rename_i hkey
        obtain rfl := Option.some.inj h
        obtain ⟨hline, hcolon⟩ := splitAt_eq_some_iff.mp hsplit
        exact ⟨key, hline, hcolon, hkey⟩
      · cases h
    · cases h
  · rintro ⟨key, hline, hcolon, hkey⟩
    rw [splitAt_eq_some_iff.mpr ⟨hline, hcolon⟩]
    simp [hkey]

theorem namedValue_field {key value : List Char} (h : ':' ∉ key) (name : String) :
    namedValue name (key ++ ':' :: value) =
      if eqIgnoreAsciiCase key name.toList then some value else none := by
  rw [namedValue, splitAt_eq_some_iff.mpr ⟨rfl, h⟩]

theorem namedValue_of_no_colon {text : List Char} (h : ':' ∉ text) (name : String) :
    namedValue name text = none := by
  apply Option.eq_none_iff_forall_ne_some.mpr
  intro value hvalue
  obtain ⟨key, rfl, -, -⟩ := namedValue_eq_some_iff.mp hvalue
  simp at h

section Text

variable {s t : String} {a b front more : List UInt8}

theorem utf8_crlf : utf8 "\r\n" = crlf := by decide

theorem utf8_cut_crlf (h : utf8 s = a ++ crlf ++ b) :
    ∃ s₁ s₂, s = s₁ ++ "\r\n" ++ s₂ ∧ utf8 s₁ = a ∧ utf8 s₂ = b := by
  rw [List.append_assoc] at h
  obtain ⟨s₁, s₂, rfl, hfirst, hsecond⟩ := utf8_split h (by simp [crlf]; decide)
  rw [← utf8_crlf] at hsecond
  obtain ⟨rest, hrest⟩ := toList_prefix_of_utf8 hsecond
  have hs₂ : s₂ = "\r\n" ++ String.ofList rest := by
    rw [← String.toList_inj, ← hrest]
    simp
  rw [hs₂, utf8_append] at hsecond
  refine ⟨s₁, String.ofList rest, ?_, hfirst, List.append_cancel_left hsecond⟩
  rw [hs₂, String.append_assoc]

theorem fromUtf8_append_crlf (front more : List UInt8) :
    fromUtf8 (front ++ crlf ++ more) =
      (fromUtf8 (front ++ crlf)).bind fun s => (fromUtf8 more).map (s ++ ·) := by
  cases hall : fromUtf8 (front ++ crlf ++ more) with
  | some s =>
      obtain ⟨s₁, s₂, rfl, rfl, rfl⟩ := utf8_cut_crlf (utf8_of_fromUtf8 hall)
      rw [← utf8_crlf, ← utf8_append, fromUtf8_utf8, fromUtf8_utf8]
      rfl
  | none =>
      cases hfront : fromUtf8 (front ++ crlf) with
      | none => rfl
      | some s =>
          cases hmore : fromUtf8 more with
          | none => rfl
          | some t =>
              rw [← utf8_of_fromUtf8 hfront, ← utf8_of_fromUtf8 hmore, ← utf8_append,
                fromUtf8_utf8] at hall
              cases hall

theorem splitCrlf_crlf (s t : String) :
    splitCrlf (s ++ "\r\n" ++ t).toList = splitCrlf s.toList ++ splitCrlf t.toList := by
  rw [String.toList_append, String.toList_append, List.append_assoc]
  exact splitCrlf_append s.toList t.toList

theorem headerValues_crlf (name : String) (s t : String) :
    headerValues name (s ++ "\r\n" ++ t).toList =
      headerValues name s.toList ++ headerValues name t.toList := by
  rw [headerValues, splitCrlf_crlf, List.filterMap_append]
  rfl

@[simp] theorem headerValues_empty (name : String) : headerValues name [] = [] := by
  simp [headerValues, splitCrlf]

theorem any_splitCrlf_crlf (p : List Char → Bool) (s t : String) :
    (splitCrlf (s ++ "\r\n" ++ t).toList).any p =
      ((splitCrlf s.toList).any p || (splitCrlf t.toList).any p) := by
  rw [splitCrlf_crlf, List.any_append]

theorem head?_splitCrlf_crlf (s t : String) :
    (splitCrlf (s ++ "\r\n" ++ t).toList).head? = (splitCrlf s.toList).head? := by
  rw [splitCrlf_crlf, List.head?_append_of_ne_nil _ (splitCrlf_ne_nil _)]

end Text

section Parsers

variable {bytes : List UInt8} {s : String}

theorem parseHostHeader_of_text (h : fromUtf8 bytes = some s) :
    parseHostHeader bytes =
      (headerValues "host" s.toList).head?.map fun value => String.ofList (trim value) := by
  simp [parseHostHeader, h, headerValue_eq_head?, Option.map_eq_bind]

theorem parseContentLength_of_text (h : fromUtf8 bytes = some s) :
    parseContentLength bytes =
      (headerValues "content-length" s.toList).head?.bind fun value => parseU64 (trim value) := by
  simp [parseContentLength, h, headerValue_eq_head?]

theorem isWebsocketUpgrade_of_text (h : fromUtf8 bytes = some s) :
    isWebsocketUpgrade bytes =
      ((splitCrlf s.toList).any upgradesToWebsocket &&
        (splitCrlf s.toList).any upgradesConnection) := by
  rw [isWebsocketUpgrade, h]

theorem parseRequestLine_of_text (h : fromUtf8 bytes = some s) :
    ∃ line, (splitCrlf s.toList).head? = some line ∧
      parseRequestLine bytes = (String.ofList (splitAt ' ' line).1,
        ((splitAt ' ' line).2.map fun rest => String.ofList (splitAt ' ' rest).1).getD "/") := by
  cases hlines : splitCrlf s.toList with
  | nil => exact absurd hlines (splitCrlf_ne_nil _)
  | cons line lines =>
      refine ⟨line, rfl, ?_⟩
      simp only [parseRequestLine, h, hlines]
      rcases splitAt ' ' line with ⟨method, _ | rest⟩ <;> rfl

theorem parsers_of_not_text (h : fromUtf8 bytes = none) :
    parseHostHeader bytes = none ∧ parseContentLength bytes = none ∧
      isWebsocketUpgrade bytes = false ∧ parseRequestLine bytes = ("?", "/") := by
  simp [parseHostHeader, parseContentLength, isWebsocketUpgrade, parseRequestLine, h]

end Parsers

end Seamless.Relay
