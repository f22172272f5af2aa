import Cyclops.Mailbox.Projection

/-!
# Validation of message rows

Each row is validated against the projection before it changes anything.
-/

namespace Cyclops

open Checked FiniteMap

structure NotificationProjectionUpdate where
  key : EntryKey
  record : NotificationRecord

/-- What a validated row will do. -/
inductive PreparedMutation where
  | message (messageId : MessageId) (metadata : MessageMetadata)
      (supersededNotification : Option NotificationProjectionUpdate)
  | claim (messageId : MessageId) (recipient claimant : RecipientKey)
      (notificationUpdate : Option NotificationProjectionUpdate)
  | deliveredDirect (messageId : MessageId) (recipient : RecipientKey)
      (attemptId : NotificationAttemptId)
  | notification (key : EntryKey) (record : NotificationRecord) (newAttempt : Bool)
  | notificationRequeues (records : List (EntryKey × NotificationRecord))
  | notificationCleared (attemptId : NotificationAttemptId)
  | notificationsCleared (batchId : String) (attemptIds : List NotificationAttemptId)
  | notificationWithdrawnBeforeWrite (key : EntryKey) (record : NotificationRecord)
  | notificationResolutionIntent (attemptId : NotificationAttemptId)
      (resolution : NotificationResolution) (forced : Bool)
  | notificationResolutionActionReserved (attemptId : NotificationAttemptId)
      (resolution : NotificationResolution)
  | notificationResolutionActionAccepted (attemptId : NotificationAttemptId)
      (resolution : NotificationResolution)
  | notificationResolutionConsumptionObserved (attemptId : NotificationAttemptId)
      (observation : NotificationResolutionConsumptionObservation)
  | notificationResolutionIntentWithdrawn (attemptId : NotificationAttemptId)
  | notificationResolvedWithoutTerminalAction (attemptId : NotificationAttemptId)
      (resolution : NotificationResolution)
  | notificationResolved (attemptId : NotificationAttemptId) (resolution : NotificationResolution)
  | notificationClaimedStagedCleared (key : EntryKey) (record : NotificationRecord)
      (attemptId : NotificationAttemptId)
  | notificationClaimedAckTimeoutReconciled (key : EntryKey) (record : NotificationRecord)
      (attemptId : NotificationAttemptId)
  | notificationBarrierRetired (attemptId : NotificationAttemptId)

/-! ## Checks shared by several validators -/

def checkRecordVersion (found : Nat) : Except MailboxError Unit :=
  refuseIf (found ≠ canonicalRecordVersion) (.invalidRecordVersion canonicalRecordVersion found)

def hasMessageFields (line : LedgerLine) : Bool :=
  line.subject.isSome || line.body.isSome || line.replyTo.isSome || !line.deliveries.isEmpty

def checkRecipients (workspaceId : WorkspaceId) (duplicate : RecipientKey → MailboxError)
    (seen : List RecipientKey) : List RecipientKey → Except MailboxError Unit
  | [] => .ok ()
  | recipient :: rest => do
    refuseIf (recipient.workspaceId ≠ workspaceId)
      (.workspaceMismatch workspaceId recipient.workspaceId)
    refuseIf (recipient ∈ seen) (duplicate recipient)
    checkRecipients workspaceId duplicate (recipient :: seen) rest

def supersededRecord (line : LedgerLine) (current : NotificationRecord) : NotificationRecord :=
  { current with
    state := .superseded
    binding := none
    cause := none
    verifiedBy := none
    verifyOutcome := none
    preWriteCause := none
    wakeBlock := none
    preWriteObservation := none
    updatedSeq := line.seq
    updatedAt := line.ts }

def settledRecord (line : LedgerLine) (current : NotificationRecord) : NotificationRecord :=
  let state := current.state.settledByClaim current.transport
  { current with
    state
    binding := if state = .notified then current.binding else none
    cause := none
    verifiedBy := none
    verifyOutcome := none
    -- The doorbell was never written: the claim is why. The retired direct
    -- payload keeps its cause-free legacy row.
    preWriteCause :=
      if state = .withdrawn ∧ current.transport ≠ .directPayload then some .claimedBeforeWrite
      else none
    wakeBlock := none
    preWriteObservation := none
    updatedSeq := line.seq
    updatedAt := line.ts }

namespace MailboxProjection

variable (p : MailboxProjection)

def checkWorkspace (found : WorkspaceId) : Except MailboxError Unit :=
  refuseIf (found ≠ p.workspaceId) (.workspaceMismatch p.workspaceId found)

def requirePendingEntry (recipient : RecipientKey) (messageId : MessageId) :
    Except MailboxError Unit := do
  let entry ← orRefuse (p.getEntry recipient messageId) (.entryNotFound messageId recipient)
  refuseIf (entry.state.isPending = false) (.notificationMessageNotPending messageId recipient)

def currentAttempt (attempt : AttemptRef) (missing : MailboxError) :
    Except MailboxError NotificationRecord := do
  let current ← orRefuse (p.notifications.lookup (attempt.recipient, attempt.messageId)) missing
  refuseIf (current.attemptId ≠ attempt.attemptId)
    (.notificationAttemptMismatch current.attemptId attempt.attemptId)
  return current

/-! ## Threads -/

structure ReplyDerivation where
  recipient : RecipientKey
  threadRoot : MessageId
  subject : Option String

def deriveReply (sender : RecipientKey) (reference : MessageId) :
    Except MailboxError ReplyDerivation := do
  let parent ← orRefuse (p.messages.lookup reference) (.messageNotFound reference)
  let parentMetadata ← extractMessageMetadata parent
  refuseIf (¬ (parentMetadata.sender = sender ∨ sender ∈ parentMetadata.recipients))
    (.replyNotVisible reference sender)
  return {
    recipient := parentMetadata.sender
    threadRoot := parentMetadata.threadRoot
    subject := replySubject parent.subject }

def supersessionNotificationIsPreWrite (recipient : RecipientKey) (messageId : MessageId) :
    Bool :=
  match p.notifications.lookup (recipient, messageId) with
  | none => true
  | some record =>
    (record.state matches .queued | .gating | .blockedPreWrite | .quotaHeld |
      .quotaResetObserved | .withdrawnByOperator)

/-- The thread a replacement joins: that of the pending message it supersedes. -/
def supersessionThreadRoot (sender : RecipientKey) (recipients : List RecipientKey)
    (supersedes : Option MessageId) : Except MailboxError (Option MessageId) :=
  match supersedes with
  | none => .ok none
  | some target =>
    match recipients with
    | [recipient] => do
      let message ← orRefuse (p.messages.lookup target) (.messageNotFound target)
      let metadata ← extractMessageMetadata message
      refuseIf (metadata.sender ≠ sender ∨ metadata.recipients ≠ [recipient])
        (.supersessionIdentityMismatch target)
      let entry ← orRefuse (p.getEntry recipient target) (.entryNotFound target recipient)
      refuseIf (entry.state.isPending = false) (.supersessionNotPending target)
      refuseIf (p.supersessionNotificationIsPreWrite recipient target = false)
        (.supersessionNotificationStarted target)
      return some metadata.threadRoot
    | _ => .error .supersessionRequiresSingleRecipient

/-! ## Messages -/

def expectedThreadRoot (line : LedgerLine) (messageId : MessageId) (metadata : MessageMetadata)
    (replyTo : Option MessageId) : Except MailboxError MessageId :=
  match replyTo with
  | some reference => do
    refuseIf (line.kind ≠ .msg) (.replyKindMismatch messageId)
    let derived ← p.deriveReply metadata.sender reference
    refuseIf (metadata.recipients ≠ [derived.recipient])
      (.replyRecipientMismatch messageId derived.recipient)
    refuseIf (line.subject ≠ derived.subject) (.replySubjectMismatch messageId)
    return derived.threadRoot
  | none => do
    let threadRoot ←
      p.supersessionThreadRoot metadata.sender metadata.recipients metadata.supersedes
    return threadRoot.getD messageId

def checkUnusedClientKey (sender : RecipientKey) (clientKey : Option String) :
    Except MailboxError Unit :=
  match clientKey with
  | none => .ok ()
  | some key =>
    match p.idempotencyIndex.lookup (sender, key) with
    | some (existingId, _) => .error (.duplicateIdempotencyKey sender key existingId)
    | none => .ok ()

def supersededNotification (line : LedgerLine) (metadata : MessageMetadata) :
    Option NotificationProjectionUpdate :=
  match metadata.supersedes, metadata.recipients with
  | some superseded, recipient :: _ =>
    (p.notifications.lookup (recipient, superseded)).map fun current =>
      { key := (recipient, superseded), record := supersededRecord line current }
  | _, _ => none

def prepareMessage [DigestScheme] (line : LedgerLine) : Except MailboxError PreparedMutation := do
  let messageId ← liftType (MessageId.new line.id)
  refuseIf (messageId ∈ p.messages) (.duplicateMessageId messageId)
  let metadata ← extractMessageMetadata line
  checkRecordVersion metadata.recordVersion
  p.checkWorkspace metadata.workspaceId
  p.checkWorkspace metadata.sender.workspaceId
  refuseIf (metadata.recipients = []) (.emptyRecipients messageId)
  let labels ← presentationLabels metadata.recipients metadata.presentation
  refuseIf (line.sentFrom ≠ labels.1)
    (.presentationMismatch .sentFrom (.text line.sentFrom) (.text labels.1))
  refuseIf (line.sentTo ≠ labels.2)
    (.presentationMismatch .sentTo (.debug line.sentTo) (.debug labels.2))
  checkRecipients p.workspaceId (.duplicateRecipient messageId) [] metadata.recipients
  let replyTo ← optionalMessageId line.replyTo
  refuseIf (replyTo.isSome = true ∧ metadata.supersedes.isSome = true) .replySupersessionConflict
  let threadRoot ← p.expectedThreadRoot line messageId metadata replyTo
  refuseIf (metadata.threadRoot ≠ threadRoot)
    (.threadRootMismatch messageId threadRoot metadata.threadRoot)
  let computed := RequestDigest.compute line.kind metadata.sender metadata.recipients
    ⟨line.subject, metadata.summary, line.body⟩ replyTo metadata.supersedes
  refuseIf (metadata.requestDigest ≠ computed) (.digestMismatch metadata.requestDigest computed)
  p.checkUnusedClientKey metadata.sender metadata.clientKey
  return .message messageId metadata (p.supersededNotification line metadata)

/-! ## Claims -/

def requireClaimable (recipient : RecipientKey) (messageId : MessageId) :
    Except MailboxError Unit := do
  let entry ← orRefuse (p.getEntry recipient messageId) (.entryNotFound messageId recipient)
  match entry.state with
  | .pending => .ok ()
  | .claimed existing _ => .error (.alreadyClaimed messageId recipient existing)
  | .superseded _ _ => .error (.messageNotPending messageId)
  | .deliveredDirect _ _ => .error (.messageNotPending messageId)

/-- What a claim makes of the current attempt, when it changes it. -/
def claimSettlement (line : LedgerLine) (recipient : RecipientKey) (messageId : MessageId) :
    Option NotificationProjectionUpdate := do
  let current ← p.notifications.lookup (recipient, messageId)
  if current.state.settledByClaim current.transport = current.state then none
  else return { key := (recipient, messageId), record := settledRecord line current }

def prepareClaim (line : LedgerLine) (recordVersion : Nat) (messageId : MessageId)
    (recipient claimant : RecipientKey) : Except MailboxError PreparedMutation := do
  checkRecordVersion recordVersion
  refuseIf (line.id ≠ messageId.text) (.envelopeMismatch line.id messageId)
  refuseIf (line.sentFrom ≠ claimant.text)
    (.presentationMismatch .sentFrom (.text line.sentFrom) (.text claimant.text))
  refuseIf (line.sentTo ≠ []) (.presentationMismatch .sentTo (.debug line.sentTo) (.text "[]"))
  refuseIf (hasMessageFields line = true) (.uncanonicalRow ("claim row seq " ++ toString line.seq ++
      " contains non-empty message fields"))
  p.checkWorkspace recipient.workspaceId
  p.checkWorkspace claimant.workspaceId
  refuseIf (claimant ≠ recipient) (.claimantMismatch messageId recipient claimant)
  p.requireClaimable recipient messageId
  return .claim messageId recipient claimant (p.claimSettlement line recipient messageId)

def prepareDeliveredDirect (line : LedgerLine) (attempt : AttemptRef) :
    Except MailboxError PreparedMutation := do
  checkRecordVersion attempt.recordVersion
  refuseIf (line.id ≠ attempt.messageId.text) (.envelopeMismatch line.id attempt.messageId)
  refuseIf (line.sentFrom ≠ "cyclopsd")
    (.presentationMismatch .sentFrom (.text line.sentFrom) (.text "cyclopsd"))
  refuseIf (line.sentTo ≠ [] ∨ hasMessageFields line = true)
    (.uncanonicalRow ("direct delivery row seq " ++ toString line.seq ++
      " contains message fields"))
  p.requirePendingEntry attempt.recipient attempt.messageId
  let notification ←
    p.currentAttempt attempt (.notificationNotFound attempt.messageId attempt.recipient)
  refuseIf (notification.state ≠ .notified ∨ notification.transport ≠ .directPayload)
    (.directDeliveryNotProven attempt.attemptId)
  return .deliveredDirect attempt.messageId attempt.recipient attempt.attemptId

end MailboxProjection

end Cyclops
