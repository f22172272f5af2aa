import Cyclops.Lib.Texts
import Cyclops.Proto.Identity

/-!
# Message and attempt identifiers

Validated identifiers carried by journal rows: message ids, notification attempt ids, manifest ids,
and the reserved message-shaped locator that names one exact notification attempt.

Result: `previews_iff`.
-/

namespace Cyclops

open List Bool Texts

/-! ## Text helpers -/

def isControl (c : Char) : Bool :=
  c.toNat < 0x20 || (0x7F ≤ c.toNat && c.toNat ≤ 0x9F)

def isAsciiGraphic (c : Char) : Bool :=
  0x21 ≤ c.toNat && c.toNat ≤ 0x7E

/-! ## Message ids -/

def isHexDigit (c : Char) : Bool :=
  c.isDigit || ('a' ≤ c && c ≤ 'f')

def messageIdPartLen : Nat := 8

def isIdPart (part : List Char) : Bool :=
  part.length == messageIdPartLen && part.all isHexDigit

def MessageId.isValid (value : List Char) : Bool :=
  match value.dropPrefix? "cyc-".toList with
  | some parts =>
    match parts.dropInfix? ['-'] with
    | some (thread, message) => isIdPart thread && isIdPart message
    | none => false
  | none =>
    match value.dropPrefix? "m-".toList with
    | some suffix => !suffix.isEmpty && suffix.all fun c => c.isAlphanum || c == '_' || c == '-'
    | none => false

structure MessageId where
  text : String
  valid : MessageId.isValid text.toList = true
deriving DecidableEq

/-- A text that does not parse. -/
inductive MailboxTypeError where
  | invalidMessageId (value : String)
  | invalidRequestDigest (value : String)
  | invalidMessageSummary

def MessageId.new (value : String) : Except MailboxTypeError MessageId :=
  if h : MessageId.isValid value.toList = true then .ok ⟨value, h⟩
  else .error (.invalidMessageId value)

theorem isHexDigit_hexDigit {n : Nat} (h : n < 16) : isHexDigit (hexDigit n) = true := by
  have hk : ∀ k : Fin 16, isHexDigit (hexDigit k) = true := by decide
  exact hk ⟨n, h⟩

theorem length_hexDigits (c n : Nat) : (hexDigits c n).length = c := by
  induction c generalizing n with
  | zero => rfl
  | succ c ih => simp [hexDigits, ih]

theorem all_hexDigits (c n : Nat) : (hexDigits c n).all isHexDigit = true := by
  induction c generalizing n with
  | zero => rfl
  | succ c ih =>
    rw [hexDigits, all_append, ih, Bool.true_and, all_cons, all_nil, Bool.and_true]
    exact isHexDigit_hexDigit (Nat.mod_lt _ (by decide))

theorem isIdPart_of_sublist {uuid : Uuid} {part : List Char} (h : part.Sublist uuid.simple)
    (hl : part.length = messageIdPartLen) : isIdPart part = true := by
  have ha : part.all isHexDigit = true := by
    rw [all_eq_true]
    exact fun c hc => all_eq_true.mp (all_hexDigits 32 uuid.toNat) c (h.subset hc)
  rw [isIdPart, hl, ha]
  rfl

/-- Eight lower-case hexadecimal characters. -/
structure IdRun where
  digits : List Char
  valid : isIdPart digits = true

/-- The two runs of a `cyc-` id. None for a legacy id. -/
def MessageId.parts (id : MessageId) : Option (List Char × List Char) :=
  (id.text.toList.dropPrefix? "cyc-".toList).bind (·.dropInfix? ['-'])

/-- The `<thread>` run of a `cyc-` id. None for a legacy id. -/
def MessageId.threadPart (id : MessageId) : Option IdRun :=
  match id.parts with
  | some (thread, _) => if h : isIdPart thread = true then some ⟨thread, h⟩ else none
  | none => none

def MessageId.ofRuns (thread message : IdRun) : MessageId :=
  ⟨String.ofList ("cyc-".toList ++ (thread.digits ++ '-' :: message.digits)), by
    have hthread := thread.valid
    rw [isIdPart, and_eq_true, all_eq_true] at hthread
    have hun : '-' ∉ thread.digits := fun hc => absurd (hthread.2 _ hc) (by decide)
    have hdrop : ("cyc-".toList ++ (thread.digits ++ '-' :: message.digits)).dropPrefix?
        "cyc-".toList = some (thread.digits ++ '-' :: message.digits) :=
      dropPrefix?_eq_some_iff.mpr ⟨"cyc-".toList, rfl, by decide⟩
    rw [String.toList_ofList, MessageId.isValid, hdrop]
    simp [dropInfix?_sep hun, thread.valid, message.valid]⟩

def IdRun.first (random : Uuid) : IdRun :=
  ⟨random.simple.take 8, isIdPart_of_sublist (take_sublist _ _)
    (by simp [Uuid.simple, length_hexDigits, messageIdPartLen])⟩

def IdRun.last (random : Uuid) : IdRun :=
  ⟨random.simple.drop 24, isIdPart_of_sublist (drop_sublist _ _)
    (by simp [Uuid.simple, length_hexDigits, messageIdPartLen])⟩

def MessageId.mintRoot (random : Uuid) : MessageId :=
  .ofRuns (.first random) (.last random)

/-! ## Message summaries -/

/-- Validate the preview line pasted beside the exact claim command. -/
def validateMessageSummary (summary : String) : Except MailboxTypeError Unit :=
  if summary.toList.isEmpty || trim summary.toList != summary.toList ||
      summary.toList.any isControl then
    .error .invalidMessageSummary
  else .ok ()

/-- A line feed at the end starts no further line. -/
def strLines (text : List Char) : List (List Char) :=
  let pieces := text.splitOn '\n'
  (pieces.dropLast.map fun line => if line.getLast? = some '\r' then line.dropLast else line) ++
    (pieces.getLast?.filter (· ≠ [])).toList

def derivedSummaryMaxChars : Nat := 200

def summaryOf (line : List Char) : Option String :=
  let words := (line.splitOnP isWhitespace).filter (· ≠ [])
  let cut := (" ".toList.intercalate words).take derivedSummaryMaxChars
  let summary := String.ofList (cut.reverse.dropWhile isWhitespace).reverse
  (validateMessageSummary summary).toOption.map fun _ => summary

def leadLine (source : String) : Option (List Char) :=
  ((strLines source.toList).map trim).find? (· ≠ [])

def deriveMessageSummary (body subject : String) : Option String :=
  [subject, body].findSome? fun source => (leadLine source).bind summaryOf

def Unusable (body subject : String) : Prop :=
  ∀ source ∈ [subject, body], ∀ line ∈ strLines source.toList, summaryOf (trim line) = none

structure ValidSummary (summary : List Char) : Prop where
  filled : trim summary ≠ []
  plain : ∀ c ∈ summary, isControl c = false
  short : summary.length ≤ derivedSummaryMaxChars

/-- What a preview is meant to show. -/
structure Previews (body subject : String) : Prop where
  valid : ∀ summary, deriveMessageSummary body subject = some summary →
    ValidSummary summary.toList
  hidden : (∃ line ∈ strLines subject.toList, trim line ≠ []) →
    deriveMessageSummary body subject = deriveMessageSummary "" subject
  nothing : deriveMessageSummary body subject = none → Unusable body subject

theorem summaryOf_valid {line : List Char} {s : String} (h : summaryOf line = some s) :
    ValidSummary s.toList := by
  simp only [summaryOf, Option.map_eq_some_iff] at h
  obtain ⟨_, passed, rfl⟩ := h
  unfold validateMessageSummary at passed
  split at passed
  · cases passed
  · next checked =>
    rw [not_eq_true, or_eq_false_iff, or_eq_false_iff, bne_eq_false_iff_eq] at checked
    obtain ⟨⟨hf, ht⟩, hp⟩ := checked
    refine ⟨by simpa only [ht, isEmpty_eq_false_iff] using hf, by simpa using hp, ?_⟩
    rw [String.toList_ofList, length_reverse]
    exact (dropWhile_sublist _).length_le.trans (by simp)

theorem leadLine_spec {s : String} {line : List Char} (h : leadLine s = some line) :
    ∃ w ∈ strLines s.toList, trim w = line ∧ line ≠ [] := by
  obtain ⟨w, among, rfl⟩ := mem_map.mp (mem_of_find?_eq_some h)
  exact ⟨w, among, rfl, by simpa using find?_some h⟩

theorem leadLine_eq_none {s : String} (h : leadLine s = none) :
    ¬∃ line ∈ strLines s.toList, trim line ≠ [] := by
  simpa [leadLine] using h

theorem deriveMessageSummary_eq (body s : String) : deriveMessageSummary body s =
      ((leadLine s).bind summaryOf).or ((leadLine body).bind summaryOf) := by
  simp only [deriveMessageSummary, findSome?_cons]
  cases (leadLine s).bind summaryOf with
  | some => rfl
  | none => cases (leadLine body).bind summaryOf with | _ => rfl

theorem bind_summaryOf_of_unusable {s : String}
    (h : ∀ line ∈ strLines s.toList, summaryOf (trim line) = none) :
    (leadLine s).bind summaryOf = none := by
  cases first : leadLine s with
  | none => rfl
  | some line =>
    obtain ⟨w, among, rfl, -⟩ := leadLine_spec first
    rw [Option.bind_some, h w among]

/-- The preview is right exactly when the line it is meant to show makes a summary, or no line does.
-/
theorem previews_iff (body subject : String) :
    Previews body subject ↔
      (((leadLine subject).or (leadLine body)).bind summaryOf).isSome ∨ Unusable body subject := by
  have hd := deriveMessageSummary_eq body subject
  have ha : deriveMessageSummary "" subject = (leadLine subject).bind summaryOf := by
    rw [deriveMessageSummary_eq, show leadLine "" = none by rfl]
    exact Option.or_none
  have hv : ∀ s, deriveMessageSummary body subject = some s →
      ValidSummary s.toList := fun s hs => by
      obtain ⟨_, -, hs⟩ := exists_of_findSome?_eq_some hs
      obtain ⟨_, -, hs⟩ := Option.bind_eq_some_iff.mp hs
      exact summaryOf_valid hs
  cases first : leadLine subject with
  | none =>
    rw [first, Option.bind_none, Option.none_or] at hd
    rw [Option.none_or, ← hd]
    refine ⟨fun right => ?_, fun hus => ⟨hv, fun hf => ?_, fun none => ?_⟩⟩
    · cases hs : deriveMessageSummary body subject with
      | none => exact .inr (right.nothing hs)
      | some => exact .inl rfl
    · exact absurd hf (leadLine_eq_none first)
    · exact hus.resolve_left (by simp [none])
  | some line =>
    obtain ⟨w, among, rfl, hf⟩ := leadLine_spec first
    rw [first, Option.bind_some] at hd ha
    rw [Option.some_or, Option.bind_some]
    cases hm : summaryOf (trim w) with
    | some s =>
      rw [hm] at hd ha
      exact iff_of_true ⟨hv, fun _ => hd.trans ha.symm, by simp [hd]⟩ (.inl rfl)
    | none =>
      rw [hm] at hd ha
      refine ⟨fun right => ?_, fun hus => ?_⟩
      · exact .inr (right.nothing ((right.hidden ⟨w, among, hf⟩).trans ha))
      · have hu := hus.resolve_left (by simp)
        rw [bind_summaryOf_of_unusable (hu body (by simp))] at hd
        exact ⟨hv, fun _ => hd.trans ha.symm, fun _ => hu⟩

theorem subject_gives_way_to_body :
    deriveMessageSummary "secret" "a\x07b" = some "secret" ∧ ¬Previews "secret" "a\x07b" := by
  have hs : deriveMessageSummary "secret" "a\x07b" = some "secret" := by decide
  refine ⟨hs, fun right => ?_⟩
  have hidden := right.hidden ⟨"a\x07b".toList, by decide, by decide⟩
  exact absurd (hs.symm.trans hidden) (by decide)

/-! ## Manifest ids -/

structure NotificationManifestId where
  text : String
  valid : (!text.toList.isEmpty && text.toList.all isAsciiGraphic) = true
deriving DecidableEq

def NotificationManifestId.new (value : String) : Option NotificationManifestId :=
  if h : (!value.toList.isEmpty && value.toList.all isAsciiGraphic) = true then some ⟨value, h⟩
  else none

/-! ## Attempt ids and their claim locators -/

@[ext]
structure NotificationAttemptId where
  uuid : Uuid
  nonNil : uuid ≠ 0

instance : DecidableEq NotificationAttemptId :=
  fun _ _ => decidable_of_iff _ NotificationAttemptId.ext_iff.symm

def NotificationAttemptId.text (attempt : NotificationAttemptId) : String :=
  "att-" ++ attempt.uuid.hyphenated

def Uuid.bytes (uuid : Uuid) : List Nat :=
  (List.range 16).map fun i => uuid.toNat / 256 ^ (15 - i) % 256

def Uuid.ofBytes (bytes : List Nat) : Uuid :=
  BitVec.ofNat 128 (bytes.foldl (fun n byte => n * 256 + byte) 0)

def attemptAlphabet : List Char :=
  "ABCDEFGHIJKLMNOPQRSTUVWXYZabcdefghijklmnopqrstuvwxyz0123456789-_".toList

def attemptCharacter (value : Nat) : Char :=
  attemptAlphabet.getD value 'A'

def encodeAttemptBytes : List Nat → List Char
  | b0 :: b1 :: b2 :: rest =>
    attemptCharacter (b0 >>> 2) ::
    attemptCharacter (((b0 &&& 0x03) <<< 4) ||| (b1 >>> 4)) ::
    attemptCharacter (((b1 &&& 0x0f) <<< 2) ||| (b2 >>> 6)) ::
    attemptCharacter (b2 &&& 0x3f) :: encodeAttemptBytes rest
  | [last] => [attemptCharacter (last >>> 2), attemptCharacter ((last &&& 0x03) <<< 4)]
  | _ => []

def notificationAttemptToken (attempt : NotificationAttemptId) : List Char :=
  encodeAttemptBytes attempt.uuid.bytes

def decodeAttemptCharacter (c : Char) : Option Nat :=
  if 'A' ≤ c ∧ c ≤ 'Z' then some (c.toNat - 'A'.toNat)
  else if 'a' ≤ c ∧ c ≤ 'z' then some (c.toNat - 'a'.toNat + 26)
  else if '0' ≤ c ∧ c ≤ '9' then some (c.toNat - '0'.toNat + 52)
  else if c = '-' then some 62
  else if c = '_' then some 63
  else none

def decodeAttemptValues : List Nat → List Nat
  | v0 :: v1 :: v2 :: v3 :: rest =>
    ((v0 <<< 2) ||| (v1 >>> 4)) % 256 :: ((v1 <<< 4) ||| (v2 >>> 2)) % 256 ::
      ((v2 <<< 6) ||| v3) % 256 :: decodeAttemptValues rest
  | [v20, v21] => [((v20 <<< 2) ||| (v21 >>> 4)) % 256]
  | _ => []

/-- Decode only the canonical, lossless 22-character attempt token. -/
def parseNotificationAttemptToken (encoded : List Char) : Option NotificationAttemptId := do
  guard (encoded.length = 22)
  let values ← encoded.mapM decodeAttemptCharacter
  guard (values.getD 21 0 &&& 0x0f = 0)
  let uuid := Uuid.ofBytes (decodeAttemptValues values)
  if h : uuid = 0 then none
  else
    let attempt : NotificationAttemptId := ⟨uuid, h⟩
    guard (notificationAttemptToken attempt = encoded)
    return attempt

/-- Decode only the canonical reserved locator for one exact attempt. -/
def parseNotificationAttemptClaimLocator (id : MessageId) : Option NotificationAttemptId := do
  let token ← id.text.toList.dropPrefix? "m-att_".toList
  let attempt ← parseNotificationAttemptToken token
  guard ("m-att_".toList ++ notificationAttemptToken attempt = id.text.toList)
  return attempt

end Cyclops
