import Cyclops.Lib.LossyText
import Cyclops.Lib.Texts
import Mathlib.Algebra.GroupWithZero.Nat
import Mathlib.Data.FinEnum

/-!
# Notifications of control mode

Every line outside a reply block is a notification.

Result: `pane_output_faithful`.
-/

namespace Cyclops.Tmux

open Texts TextLines LossyText List Option UInt8

/-! ## Texts -/

def stripEnd (text ending : String) : Option String :=
  (text.toList.dropSuffix? ending.toList).map String.ofList

def splitWhitespace (text : String) : List String :=
  ((text.toList.splitOnP isWhitespace).filter (· ≠ [])).map String.ofList

/-- A number of at most 64 bits in decimal digits. A plus sign may stand before them. -/
def parseU64 (text : List UInt8) : Option Nat :=
  let digits := (text.dropPrefix? (encode "+")).getD text
  let value := digits.foldl (fun value digit => value * 10 + (digit.toNat - 48)) 0
  if digits ≠ [] ∧ (∀ digit ∈ digits, 48 ≤ digit.toNat ∧ digit.toNat ≤ 57) ∧ value < 2 ^ 64 then
    some value
  else none

/-! ## Octal escapes -/

def isOctal (b : UInt8) : Bool :=
  48 ≤ b.toNat && b.toNat ≤ 55

/-- Undo the octal escaping of pane output. -/
def unescapeOctalBytes : List UInt8 → List UInt8
  | [] => []
  | b :: rest =>
    if b.toNat = 92 then
      match rest with
      | d₀ :: d₁ :: d₂ :: rest₃ =>
        if isOctal d₀ && isOctal d₁ && isOctal d₂ then
          ofNat ((d₀.toNat - 48) * 64 + (d₁.toNat - 48) * 8 + (d₂.toNat - 48)) ::
            unescapeOctalBytes rest₃
        else b :: unescapeOctalBytes (d₀ :: d₁ :: d₂ :: rest₃)
      | short => b :: unescapeOctalBytes short
    else b :: unescapeOctalBytes rest

def unescapeOctal (text : String) : List UInt8 :=
  unescapeOctalBytes (encode text)

/-! ## Notifications -/

/-- One notification of control mode. Ids keep their sigils. -/
inductive Notification where
  | output (pane : String) (data : List UInt8)
  | extendedOutput (pane : String) (ageMs : Nat) (data : List UInt8)
  | sessionChanged (session name : String)
  | sessionRenamed (session : Option String) (name : String)
  | sessionsChanged
  | windowAdd (window : String)
  | windowClose (window : String)
  | windowRenamed (window name : String)
  | unlinkedWindowAdd (window : String)
  | unlinkedWindowClose (window : String)
  | unlinkedWindowRenamed (window name : String)
  | layoutChange (window rest : String)
  | windowPaneChanged (window pane : String)
  | paneModeChanged (pane : String)
  | clientDetached (client : String)
  | clientSessionChanged (client session name : String)
  | subscriptionChanged (name : String) (session window pane : Option String) (value : String)
  | pause (pane : String)
  /-- `%continue`: flow control resumed the pane. -/
  | resume (pane : String)
  | exit (reason : Option String)
  /-- Anything that is not recognised, verbatim. -/
  | other (line : String)
deriving DecidableEq

/-- A header and a value with a lone colon between them. The value may be empty. -/
def splitHeader (text : String) : Option (String × String) :=
  (splitOnce text " : ").or ((stripEnd text " :").map (·, ""))

/-- `%extended-output %pane age [reserved...] : data`. -/
def parseExtendedOutput (line rest : String) : Notification :=
  match splitOnce rest " " with
  | none => .other line
  | some (pane, tail) =>
    match splitHeader tail with
    | none => .other line
    | some (head, data) =>
      let age := (splitWhitespace head).head?.bind fun word => parseU64 (encode word)
      .extendedOutput pane (age.getD 0) (unescapeOctal data)

def lastWith (sigil : Char) (words : List String) : Option String :=
  (words.filter fun word => word.toList.head? = some sigil).getLast?

/-- `%subscription-changed name $session @window window-index %pane ... : value`. -/
def parseSubscriptionChanged (line rest : String) : Notification :=
  match splitHeader rest with
  | none => .other line
  | some (header, value) =>
    match splitWhitespace header with
    | [] => .other line
    | name :: tokens =>
      .subscriptionChanged name (lastWith '$' tokens) (lastWith '@' tokens) (lastWith '%' tokens)
        value

def parseNotification (line : String) : Notification :=
  let (word, rest) := (splitOnce line " ").getD (line, "")
  /- A notification of two fields, the first without spaces. -/
  let pair (notification : String → String → Notification) : Notification :=
    match splitOnce rest " " with
    | some (first, second) => notification first second
    | none => .other line
  match word with
  | "%output" =>
    match splitOnce rest " " with
    | some (pane, data) => .output pane (unescapeOctal data)
    | none => if rest ≠ "" then .output rest [] else .other line
  | "%extended-output" => parseExtendedOutput line rest
  | "%session-changed" => pair .sessionChanged
  | "%session-renamed" =>
    match splitOnce rest " " with
    | some (session, name) =>
      if session.toList.head? = some '$' then .sessionRenamed (some session) name
      else .sessionRenamed none rest
    | none => .sessionRenamed none rest
  | "%sessions-changed" => .sessionsChanged
  | "%window-add" => .windowAdd rest
  | "%window-close" => .windowClose rest
  | "%window-renamed" => pair .windowRenamed
  | "%unlinked-window-add" => .unlinkedWindowAdd rest
  | "%unlinked-window-close" => .unlinkedWindowClose rest
  | "%unlinked-window-renamed" =>
    match splitOnce rest " " with
    | some (window, name) => .unlinkedWindowRenamed window name
    | none => .unlinkedWindowRenamed rest ""
  | "%layout-change" => pair .layoutChange
  | "%window-pane-changed" => pair .windowPaneChanged
  | "%pane-mode-changed" => .paneModeChanged rest
  | "%client-detached" => .clientDetached rest
  | "%client-session-changed" =>
    pair fun client tail =>
      match splitOnce tail " " with
      | some (session, name) => .clientSessionChanged client session name
      | none => .other line
  | "%subscription-changed" => parseSubscriptionChanged line rest
  | "%pause" => .pause rest
  | "%continue" => .resume rest
  | "%exit" => .exit (if rest = "" then none else some rest)
  | _ => .other line

def parseOutputBytes (line : List UInt8) : Option Notification :=
  match line.dropPrefix? (encode "%output ") with
  | some rest => do
    let (paneBytes, data) ← rest.dropInfix? (encode " ")
    let pane ← decode paneBytes
    return .output pane (unescapeOctalBytes data)
  | none =>
    match line.dropPrefix? (encode "%extended-output ") with
    | some rest => do
      let (paneBytes, tail) ← rest.dropInfix? (encode " ")
      let pane ← decode paneBytes
      let (head, data) ←
        (tail.dropInfix? (encode " : ")).or ((tail.dropSuffix? (encode " :")).map (·, []))
      let age := ((head.splitOnP (· = 32)).head?).bind parseU64
      return .extendedOutput pane (age.getD 0) (unescapeOctalBytes data)
    | none => none

def parseNotificationBytes (line : List UInt8) : Notification :=
  match decode line with
  | some text => parseNotification text
  | none => (parseOutputBytes line).getD (parseNotification (fromUtf8Lossy line))

/-! ## Pane output -/

def escapeOctal (data : List UInt8) : List UInt8 :=
  data.flatMap fun b =>
    if b.toNat < 32 ∨ b.toNat = 92 then
      92 :: [b.toNat / 64, b.toNat / 8 % 8, b.toNat % 8].map fun digit => ofNat (48 + digit)
    else [b]

theorem isOctal_ofNat {d : Nat} (h : d < 8) : isOctal (ofNat (48 + d)) = true := by
  simp [isOctal]
  omega

theorem unescapeOctalBytes_escapeOctal (data : List UInt8) :
    unescapeOctalBytes (escapeOctal data) = data := by
  induction data with
  | nil => simp [escapeOctal, unescapeOctalBytes]
  | cons b data ih =>
    rw [escapeOctal, flatMap_cons, ← escapeOctal]
    split_ifs with he
    · have digits : b.toNat / 64 * 64 + b.toNat / 8 % 8 * 8 + b.toNat % 8 = b.toNat := by omega
      have value : ∀ d < 8, (ofNat (48 + d)).toNat - 48 = d := by
        intro d hs
        rw [toNat_ofNat']
        omega
      simp only [map_cons, map_nil, cons_append, nil_append]
      rw [unescapeOctalBytes.eq_def]
      simp only [isOctal_ofNat, value, show b.toNat / 64 < 8 by omega,
        show b.toNat / 8 % 8 < 8 by omega, show b.toNat % 8 < 8 by omega, digits, ih]
      simp
    · rw [not_or] at he
      rw [cons_append, nil_append, unescapeOctalBytes.eq_def]
      simp [he, ih]

def outputLine (pane : String) (data : List UInt8) : List UInt8 :=
  encode ("%output " ++ (pane ++ " ")) ++ escapeOctal data

/-- The age is followed by words that are reserved, and a lone colon. -/
def extendedOutputLine (pane age : String) (reserved : List String) (data : List UInt8) :
    List UInt8 :=
  encode ("%extended-output " ++ (pane ++ (" " ++ (age ++
    (" " ++ (String.join (reserved.map (· ++ " ")) ++ ": ")))))) ++ escapeOctal data

section

variable {pane age : String} (hu : ' ' ∉ pane.toList) (data : List UInt8)

include hu

theorem parse_outputLine : parseNotificationBytes (outputLine pane data) = .output pane data := by
  have hk := unescapeOctalBytes_escapeOctal data
  rw [parseNotificationBytes, outputLine, decode_append]
  cases hd : decode (escapeOctal data) with
  | some text =>
    rw [decode_eq_some.mp hd] at hk
    have word := @splitOnce_append "%output" (by decide) (pane ++ (" " ++ text))
    simp only [map_some, show "%output " = "%output" ++ " " from rfl, String.append_assoc,
      parseNotification, word, splitOnce_append hu text, getD_some, unescapeOctal, hk]
  | none =>
    have paneBytes := dropInfix?_sep (space_notMem_encode hu) (escapeOctal data)
    simp [encode_append, parseOutputBytes, dropPrefix?_append_of_beq,
      show encode " " = [32] from rfl, paneBytes, decode_encode, hk]

theorem parse_extendedOutputLine (word : ' ' ∉ age.toList) {r : List String}
    (hp : ∀ word ∈ r, ' ' ∉ word.toList ∧ word ≠ ":") : ∃ a,
      parseNotificationBytes (extendedOutputLine pane age r data) =
        .extendedOutput pane a data := by
  have hk := unescapeOctalBytes_escapeOctal data
  rw [parseNotificationBytes, extendedOutputLine, decode_append]
  cases hd : decode (escapeOctal data) with
  | some text =>
    rw [decode_eq_some.mp hd] at hk
    have hc : ∀ w ∈ r.map String.toList, ' ' ∉ w ∧ w ≠ [':'] :=
      forall_mem_map.mpr fun w ha => (hp w ha).imp_right fun other hl =>
        other (String.toList_inj.mp hl)
    obtain ⟨head, colon⟩ := dropInfix?_words word (by decide) hc text.toList
    have split : splitOnce (age ++ (" " ++ (.join (r.map (· ++ " ")) ++
        (": " ++ text)))) " : " = some (.ofList head, text) := by
      rw [flatMap_map] at colon
      simp [splitOnce, flatMap_map, colon]
    simp only [map_some, show "%extended-output " = "%extended-output" ++ " " from rfl,
      String.append_assoc, parseNotification, @splitOnce_append "%extended-output" (by decide),
      splitOnce_append hu, parseExtendedOutput, splitHeader, split, some_or, getD_some,
      unescapeOctal, hk]
    exact ⟨_, rfl⟩
  | none =>
    have hb : ∀ w ∈ r.map encode, 32 ∉ w ∧ w ≠ [58] :=
      forall_mem_map.mpr fun w ha => (hp w ha).imp space_notMem_encode fun other hl =>
        other (some.inj ((decode_encode w).symm.trans (congrArg decode hl)))
    obtain ⟨head, colon⟩ :=
      dropInfix?_words (space_notMem_encode word) (by decide) hb (escapeOctal data)
    have words : encode (.join (r.map (· ++ " "))) = (r.map encode).flatMap (· ++ [32]) := by
      simp [encode_eq, String.toList_join, flatMap_map, flatMap_assoc,
        show String.utf8EncodeChar ' ' = [32] from rfl]
    have other (rest) :
        (encode "%extended-output " ++ rest).dropPrefix? (encode "%output ") = none := rfl
    simp [encode_append, parseOutputBytes, other, words, dropPrefix?_append_of_beq,
      show encode " " = [32] from rfl, show encode ": " = [58, 32] from rfl,
      show encode " : " = [32, 58, 32] from rfl, dropInfix?_sep (space_notMem_encode hu),
      colon, decode_encode, hk]

end

/-- Pane output is parsed byte for byte, also where it makes a line that is not UTF-8. -/
theorem pane_output_faithful {pane : String} (unspaced : ' ' ∉ pane.toList) (data : List UInt8) :
    parseNotificationBytes (outputLine pane data) = .output pane data ∧
      ∀ age reserved, ' ' ∉ age.toList → (∀ word ∈ reserved, ' ' ∉ word.toList ∧ word ≠ ":") →
        ∃ ageMs, parseNotificationBytes (extendedOutputLine pane age reserved data) =
          .extendedOutput pane ageMs data :=
  ⟨parse_outputLine unspaced data, fun _ _ word => parse_extendedOutputLine unspaced data word⟩

/-- A cut character between an escape and a backslash. -/
theorem cut_character_kept : parseNotificationBytes (outputLine "%1" [27, 0xC3, 92]) =
    .output "%1" [27, 0xC3, 92] :=
  (pane_output_faithful (by decide) _).1

end Cyclops.Tmux
