import Cyclops.Mailbox.Directory
import Mathlib.Data.Finset.Basic

/-!
# The mailbox projection

The in-memory projection of one workspace journal, its point reads, and the predicates its
validators share.
-/

namespace Cyclops

open Checked FiniteMap

abbrev EntryKey := RecipientKey × MessageId

/-- In-memory projection of mailboxes derived from canonical workspace journal lines. -/
structure MailboxProjection where
  workspaceId : WorkspaceId
  lastWorkspaceSeq : Option Nat
  messages : Map MessageId LedgerLine
  idempotencyIndex : Map (RecipientKey × String) (MessageId × RequestDigest)
  mailboxes : Map RecipientKey (Map Nat MailboxEntry)
  mailboxIndex : Map EntryKey Nat
  notifications : Map EntryKey NotificationRecord
  activeNotificationBarriers : Map NotificationAttemptId NotificationRecord
  claimedAckTimeoutReconciliations : Finset NotificationAttemptId
  notificationAttempts : Finset NotificationAttemptId
  clearedAttempts : Finset NotificationAttemptId
  clearanceBatches : Finset String
  resolvedAttempts : Map NotificationAttemptId NotificationResolution
  resolutionIntents : Map NotificationAttemptId NotificationResolution
  forcedResolutionIntents : Finset NotificationAttemptId
  resolutionActionReservations : Map NotificationAttemptId NotificationResolution
  resolutionActionReservationSequences : Map NotificationAttemptId Nat
  resolutionActionsAccepted : Map NotificationAttemptId NotificationResolution
  resolutionActionSequences : Map NotificationAttemptId Nat
  claimSequences : Map EntryKey Nat
  notificationWriteSequences : Map NotificationAttemptId Nat
  resolutionConsumptions :
    Map NotificationAttemptId NotificationResolutionConsumptionObservation

namespace MailboxProjection

def new (workspaceId : WorkspaceId) : MailboxProjection where
  workspaceId
  lastWorkspaceSeq := none
  messages := ∅
  idempotencyIndex := ∅
  mailboxes := ∅
  mailboxIndex := ∅
  notifications := ∅
  activeNotificationBarriers := ∅
  claimedAckTimeoutReconciliations := ∅
  notificationAttempts := ∅
  clearedAttempts := ∅
  clearanceBatches := ∅
  resolvedAttempts := ∅
  resolutionIntents := ∅
  forcedResolutionIntents := ∅
  resolutionActionReservations := ∅
  resolutionActionReservationSequences := ∅
  resolutionActionsAccepted := ∅
  resolutionActionSequences := ∅
  claimSequences := ∅
  notificationWriteSequences := ∅
  resolutionConsumptions := ∅

/-! ## Point reads -/

section Reads

variable (p : MailboxProjection)

def head : Nat :=
  p.lastWorkspaceSeq.getD 0

def getMessage (messageId : MessageId) : Option LedgerLine :=
  p.messages.lookup messageId

def getEntry (recipient : RecipientKey) (messageId : MessageId) : Option MailboxEntry := do
  let seq ← p.mailboxIndex.lookup (recipient, messageId)
  let mailbox ← p.mailboxes.lookup recipient
  mailbox.lookup seq

def getMailbox (recipient : RecipientKey) : List MailboxEntry :=
  match p.mailboxes.lookup recipient with
  | some mailbox => (ordered mailbox).map Sigma.snd
  | none => []

def getPending (recipient : RecipientKey) : List MailboxEntry :=
  (p.getMailbox recipient).filter fun entry => entry.state.isPending

def entryIsPending (recipient : RecipientKey) (messageId : MessageId) : Bool :=
  match p.getEntry recipient messageId with
  | some entry => entry.state.isPending
  | none => false

def entryIsClaimed (recipient : RecipientKey) (messageId : MessageId) : Bool :=
  match p.getEntry recipient messageId with
  | some entry => entry.state.isClaimed
  | none => false

def notification (recipient : RecipientKey) (messageId : MessageId) : Option NotificationRecord :=
  p.notifications.lookup (recipient, messageId)

/-- A withdrawn wake leaves its mailbox entry pending and pullable, but it no
longer occupies notification FIFO. -/
def notificationWithdrawnByOperator (recipient : RecipientKey) (messageId : MessageId) : Bool :=
  match p.notification recipient messageId with
  | some record => record.state == .withdrawnByOperator
  | none => false

def notificationByAttempt (attemptId : NotificationAttemptId) : Option NotificationRecord :=
  (values p.notifications).find? fun record => record.attemptId = attemptId

def alarmCleared (attemptId : NotificationAttemptId) : Bool :=
  attemptId ∈ p.clearedAttempts

def attentionResolutionPending (attemptId : NotificationAttemptId) : Bool :=
  attemptId ∈ p.resolutionIntents && attemptId ∉ p.resolvedAttempts

def preSubmitState (state : NotificationState) : Bool :=
  state matches .queued | .gating | .blockedPreWrite | .quotaHeld | .quotaResetObserved |
    .writing | .staged | .submitting

def earlierStarted (best : Option NotificationRecord) (record : NotificationRecord) :
    Option NotificationRecord :=
  match best with
  | none => some record
  | some held => if record.startedSeq < held.startedSeq then some record else some held

def claimedOperatorNotification (recipient : RecipientKey) : Option NotificationRecord :=
  ((values p.notifications).filter fun record =>
    record.recipient = recipient ∧ record.transport = .doorbell ∧
      preSubmitState record.state = true ∧
      p.entryIsClaimed recipient record.messageId = true).foldl earlierStarted none

/-- The recipient claimed the message after the attempt crossed its write boundary. -/
def exactRecipientClaimedAfterWrite (record : NotificationRecord) : Bool :=
  match p.notificationWriteSequences.lookup record.attemptId,
      p.claimSequences.lookup (record.recipient, record.messageId) with
  | some writeSeq, some claimSeq =>
    writeSeq < claimSeq &&
      match p.getEntry record.recipient record.messageId with
      | some ⟨_, _, .claimed claimant _, _, _⟩ => claimant = record.recipient
      | _ => false
  | _, _ => false

def openAlarms : List NotificationRecord :=
  ((values p.notifications).filter fun record =>
    record.state = .attentionRequired ∧ record.attemptId ∉ p.resolvedAttempts ∧
      record.attemptId ∉ p.clearedAttempts).insertionSort fun a b =>
    a.updatedAt < b.updatedAt ∨
      a.updatedAt = b.updatedAt ∧ ¬ b.attemptId.text < a.attemptId.text

end Reads

end MailboxProjection

/-! ## Predicates on records and rows -/

/-- A legacy write: an old format and a binding without its pane root. -/
def usesLegacyNotificationWriteContract (record : NotificationRecord) : Bool :=
  let legacyTransport :=
    match record.transport with
    | .doorbell => record.doorbellFormat == none || record.doorbellFormat == some 1
    | .directPayload => record.doorbellFormat.isNone
    | .raw | .mailbox => false
  legacyTransport &&
    match record.binding with
    | some binding => binding.paneRoot.isNone
    | none => false

def usesIncompleteLegacyDoorbellContract (record : NotificationRecord) : Bool :=
  record.transport == .doorbell &&
    (record.doorbellFormat == none || record.doorbellFormat == some 1) &&
    match record.binding with
    | some binding => binding.paneRoot.isNone
    | none => false

def withdrawnByClaimBeforeWrite (record : NotificationRecord) : Bool :=
  record.state == .withdrawn && record.preWriteCause == some .claimedBeforeWrite

/-- Admit the correction of an unwritten paste, and the edges only an old journal takes. -/
def notificationTransitionAllowed (record : NotificationRecord) (next : NotificationState)
    (preWriteCause : Option NotificationPreWriteCause) (replaying : Bool) : Bool :=
  record.state.canTransitionTo next ||
  (record.state == .writing && next == .blockedPreWrite &&
    preWriteCause == some .pasteCommandUnwritten) ||
  (replaying && record.state == .staged && next == .submitted &&
    usesLegacyNotificationWriteContract record) ||
  (replaying && withdrawnByClaimBeforeWrite record &&
    (next matches .gating | .blockedPreWrite | .writing))

/-- Route evidence from another daemon run, or a later observation of the same one. -/
def routeEvidenceIsLater (prior current : NotificationRouteEvidenceId) : Bool :=
  prior.bootId != current.bootId || prior.generation < current.generation

def extractMessageMetadata (line : LedgerLine) : Except MailboxError MessageMetadata :=
  match line.data with
  | some (.metadata metadata) => .ok metadata
  | _ => .error (.missingMetadata line.id)

def optionalMessageId (value : Option String) : Except MailboxError (Option MessageId) :=
  match value with
  | some text => (liftType (MessageId.new text)).map some
  | none => .ok none

end Cyclops
