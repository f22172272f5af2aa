import Cyclops.Mailbox.Prepare

/-!
# Validation of notification rows

The rows that move an attempt through its states: transitions, the reminder, requeues, clearances
and withdrawals.
-/

namespace Cyclops

open Checked FiniteMap NotificationPreWriteObservation

/-! ## Transitions -/

/-- A close that no terminal took part in: the message waits in the mailbox. -/
def NotificationTransition.isMailboxClose (fact : NotificationTransition) : Bool :=
  fact.state == .notified && fact.transport == some .mailbox

/-- The edge a transition takes from the current record of its key. -/
def checkTransitionEdge (fact : NotificationTransition) (replaying : Bool)
    (current : Option NotificationRecord) : Except MailboxError Unit :=
  match current with
  | none =>
    refuseIf (fact.state ≠ .queued) (.notificationNotFound fact.messageId fact.recipient)
  | some current => do
    refuseIf (current.attemptId ≠ fact.attemptId)
      (.notificationAttemptMismatch current.attemptId fact.attemptId)
    refuseIf (current.state = .blockedPreWrite ∧ fact.state = .gating ∧
        1 ≤ current.preWriteReopenCount)
      .notificationPreWriteReopenExhausted
    refuseIf (fact.preWriteCause = some .pasteCommandUnwritten ∧
        ¬ (current.state = .writing ∧ fact.state = .blockedPreWrite))
      (.invalidNotificationTransition current.state fact.state)
    refuseIf (notificationTransitionAllowed current fact.state fact.preWriteCause replaying = false)
      (.invalidNotificationTransition current.state fact.state)
    -- Only the mailbox transport may cross from queued straight to notified.
    refuseIf (current.state = .queued ∧ fact.state = .notified ∧
        fact.transport ≠ some .mailbox)
      (.invalidNotificationTransition current.state fact.state)
    refuseIf (fact.isMailboxClose = true ∧ current.state ≠ .queued) .notificationTransportForbidden

/-- A raw write proves nothing about the occupant, so it carries no binding. -/
def checkTransitionBinding (fact : NotificationTransition) : Except MailboxError Unit :=
  if fact.state = .writing ∧ fact.transport ≠ some .raw then do
    let binding ← orRefuse fact.binding .notificationBindingRequired
    refuseIf (binding.recipient ≠ fact.recipient) .notificationBindingMismatch
  else
    refuseIf (fact.binding.isSome = true) .notificationBindingForbidden

def checkTransitionTransport (fact : NotificationTransition) : Except MailboxError Unit := do
  refuseIf (fact.verifiedBy.isSome = true ∧ fact.state ≠ .notified) .notificationVerifiedByForbidden
  refuseIf (fact.isMailboxClose = true ∧ fact.verifiedBy.isSome = true)
    .notificationVerifiedByForbidden
  refuseIf (fact.state ≠ .writing ∧ fact.transport.isSome = true ∧
      fact.isMailboxClose = false)
    .notificationTransportForbidden
  refuseIf (fact.state ≠ .writing ∧ fact.doorbellFormat.isSome = true)
    .notificationDoorbellFormatForbidden
  refuseIf (fact.doorbellFormat.isSome = true ∧ fact.transport.getD .doorbell ≠ .doorbell)
    .notificationDoorbellFormatForbidden

def checkTransitionCause (fact : NotificationTransition) (replaying : Bool)
    (current : Option NotificationRecord) : Except MailboxError Unit :=
  if fact.state = .attentionRequired then do
    let cause ← orRefuse fact.cause .notificationCauseRequired
    let prior ← orRefuse current (.notificationNotFound fact.messageId fact.recipient)
    refuseIf (cause.validAfter prior.state = false) (.invalidNotificationCause cause prior.state)
    refuseIf (cause = .verifyFailed ∧ fact.verifyOutcome = none ∧ replaying = false)
      .notificationVerifyOutcomeRequired
    refuseIf (cause ≠ .verifyFailed ∧ fact.verifyOutcome.isSome = true)
      .notificationVerifyOutcomeForbidden
  else do
    refuseIf (fact.cause.isSome = true) .notificationCauseForbidden
    refuseIf (fact.verifyOutcome.isSome = true) .notificationVerifyOutcomeForbidden

def NotificationPreWriteObservation.widths (observation : NotificationPreWriteObservation) :
    Option (Nat × Nat) :=
  match observation.paneWidth, observation.requiredPaneWidth with
  | some observed, some required => some (observed, required)
  | _, _ => none

def checkPreWriteEvidence (fact : NotificationTransition) : Except MailboxError Unit :=
  if fact.state = .blockedPreWrite then do
    refuseIf (fact.preWriteCause = none) .notificationPreWriteCauseRequired
    let widths := fact.preWriteObservation.bind widths
    refuseIf ((fact.preWriteCause = some .bindingUnprovable ∨
          fact.preWriteCause = some .composerSemanticMissing ∨
          widths.isSome = true ∧ fact.preWriteCause = some .writeReadinessChanged) ∧
        fact.preWriteObservation.bind selectedManifest = none)
      .notificationPreWriteObservationRequired
    refuseIf (∃ observation ∈ fact.preWriteObservation,
        observation.paneWidth.isSome ≠ observation.requiredPaneWidth.isSome)
      .notificationPreWriteObservationRequired
    match widths with
    | none => .ok ()
    | some (observed, required) => do
      refuseIf (fact.preWriteCause ≠ some .writeReadinessChanged)
        .notificationPreWriteObservationRequired
      refuseIf (required ≤ observed ∨ required = 0)
        (.notificationPaneWidthNotNarrow observed required)
  else
    refuseIf (fact.preWriteCause.isSome = true ∨ fact.wakeBlock.isSome = true ∨
        fact.preWriteObservation.isSome = true)
      .notificationPreWriteCauseForbidden

def queuedRecord (line : LedgerLine) (attemptId : NotificationAttemptId) (messageId : MessageId)
    (recipient : RecipientKey) : NotificationRecord where
  attemptId
  messageId
  recipient
  state := .queued
  binding := none
  transport := .doorbell
  doorbellFormat := none
  cause := none
  verifiedBy := none
  verifyOutcome := none
  preWriteCause := none
  wakeBlock := none
  preWriteObservation := none
  preWriteReopenCount := 0
  unclaimedReminderCount := 0
  startedSeq := line.seq
  updatedSeq := line.seq
  updatedAt := line.ts

def transitionRecord (line : LedgerLine) (fact : NotificationTransition)
    (current : NotificationRecord) : NotificationRecord where
  attemptId := fact.attemptId
  messageId := fact.messageId
  recipient := fact.recipient
  state := fact.state
  binding :=
    if fact.state = .writing then fact.binding
    else if fact.state = .blockedPreWrite ∧ fact.preWriteCause = some .pasteCommandUnwritten then
      none
    else current.binding
  transport :=
    if fact.state = .writing ∨ fact.isMailboxClose = true then
      fact.transport.getD .doorbell
    else current.transport
  doorbellFormat :=
    if fact.state = .writing then fact.doorbellFormat
    else if fact.state = .blockedPreWrite ∧ fact.preWriteCause = some .pasteCommandUnwritten then
      none
    else current.doorbellFormat
  cause := fact.cause
  verifiedBy := fact.verifiedBy
  verifyOutcome := fact.verifyOutcome
  preWriteCause := fact.preWriteCause
  wakeBlock := fact.wakeBlock
  preWriteObservation := fact.preWriteObservation
  preWriteReopenCount :=
    if current.state = .blockedPreWrite ∧ fact.state = .gating then
      saturatingAddU8 current.preWriteReopenCount 1
    else current.preWriteReopenCount
  unclaimedReminderCount := current.unclaimedReminderCount
  startedSeq := current.startedSeq
  updatedSeq := line.seq
  updatedAt := line.ts

def remindedRecord (line : LedgerLine) (current : NotificationRecord) : NotificationRecord :=
  { current with
    state := .gating
    cause := none
    verifiedBy := none
    verifyOutcome := none
    preWriteCause := none
    wakeBlock := none
    preWriteObservation := none
    unclaimedReminderCount := 1
    updatedSeq := line.seq
    updatedAt := line.ts }

def withdrawnRecord (line : LedgerLine) (attempt : AttemptRef) (current : NotificationRecord) :
    NotificationRecord :=
  { current with
    attemptId := attempt.attemptId
    messageId := attempt.messageId
    recipient := attempt.recipient
    state := .withdrawnByOperator
    binding := none
    cause := none
    verifiedBy := none
    verifyOutcome := none
    preWriteCause := none
    wakeBlock := none
    preWriteObservation := none
    updatedSeq := line.seq
    updatedAt := line.ts }

def sortedTexts (texts : List String) : List String :=
  texts.dedup.insertionSort fun a b => ¬ b < a

def sortedAttempts (attemptIds : List NotificationAttemptId) : List NotificationAttemptId :=
  attemptIds.dedup.insertionSort fun a b => a.uuid ≤ b.uuid

namespace MailboxProjection

variable (p : MailboxProjection)

def validateNotificationEnvelope (line : LedgerLine) (recordVersion : Nat)
    (messageId : MessageId) (recipient : RecipientKey) : Except MailboxError Unit := do
  checkRecordVersion recordVersion
  p.checkWorkspace recipient.workspaceId
  refuseIf (recipient.isAdmin = true) .notificationRecipientNotAgent
  refuseIf (line.id ≠ messageId.text) (.envelopeMismatch line.id messageId)
  refuseIf (line.sentFrom ≠ "cyclopsd")
    (.presentationMismatch .sentFrom (.text line.sentFrom) (.text "cyclopsd"))
  refuseIf (line.sentTo ≠ [recipient.text])
    (.presentationMismatch .sentTo (.debug line.sentTo) (.debug [recipient.text]))
  refuseIf (hasMessageFields line = true)
    (.uncanonicalRow ("notification row seq " ++ toString line.seq ++
      " contains message or delivery fields"))
  refuseIf (messageId ∉ p.messages) (.messageNotFound messageId)
  refuseIf (p.getEntry recipient messageId = none) (.entryNotFound messageId recipient)

def prepareNotificationTransition (line : LedgerLine) (fact : NotificationTransition)
    (replaying : Bool) : Except MailboxError PreparedMutation := do
  p.validateNotificationEnvelope line fact.recordVersion fact.messageId fact.recipient
  let key := (fact.recipient, fact.messageId)
  let current := p.notifications.lookup key
  checkTransitionEdge fact replaying current
  checkTransitionBinding fact
  checkTransitionTransport fact
  checkTransitionCause fact replaying current
  checkPreWriteEvidence fact
  match current with
  | none => do
    p.requirePendingEntry fact.recipient fact.messageId
    refuseIf (fact.attemptId ∈ p.notificationAttempts) (.notificationAttemptReused fact.attemptId)
    return .notification key (queuedRecord line fact.attemptId fact.messageId fact.recipient) true
  | some current => return .notification key (transitionRecord line fact current) false

def prepareUnclaimedReminderQueued (line : LedgerLine) (attempt : AttemptRef) :
    Except MailboxError PreparedMutation := do
  p.validateNotificationEnvelope line attempt.recordVersion attempt.messageId attempt.recipient
  p.requirePendingEntry attempt.recipient attempt.messageId
  let current ← p.currentAttempt attempt (.notificationNotFound attempt.messageId attempt.recipient)
  refuseIf (current.state ≠ .notified ∨ current.transport ≠ .doorbell ∨
      current.unclaimedReminderCount ≠ 0 ∨ attempt.attemptId ∈ p.activeNotificationBarriers)
    (.invalidNotificationFact ("unclaimed reminder requires one pending, notified doorbell " ++
      "with a retired prior barrier and unused allowance"))
  return .notification (attempt.recipient, attempt.messageId) (remindedRecord line current) false

/-! ## Requeues -/

def prepareNotificationRequeueRecord (line : LedgerLine) (messageId : MessageId)
    (requeue : NotificationRequeue) : Except MailboxError (EntryKey × NotificationRecord) := do
  p.requirePendingEntry requeue.recipient messageId
  let current ← p.currentAttempt ⟨canonicalRecordVersion, requeue.priorAttemptId, messageId,
    requeue.recipient⟩ (.notificationNotFound messageId requeue.recipient)
  refuseIf (¬ (current.state = .attentionRequired ∨ current.state = .quotaResetObserved))
    .notificationRequeueRequiresAttention
  refuseIf (requeue.priorAttemptId ∈ p.resolutionIntents)
    (.notificationResolutionAmbiguous requeue.priorAttemptId)
  refuseIf (requeue.attemptId ∈ p.notificationAttempts)
    (.notificationAttemptReused requeue.attemptId)
  return ((requeue.recipient, messageId),
    queuedRecord line requeue.attemptId messageId requeue.recipient)

def prepareNotificationRequeue (line : LedgerLine) (priorAttemptId : NotificationAttemptId)
    (attempt : AttemptRef) : Except MailboxError PreparedMutation := do
  p.validateNotificationEnvelope line attempt.recordVersion attempt.messageId attempt.recipient
  let requeued ← p.prepareNotificationRequeueRecord line attempt.messageId
    ⟨priorAttemptId, attempt.attemptId, attempt.recipient⟩
  return .notification requeued.1 requeued.2 true

def checkRequeueRecipients (seen : List RecipientKey) :
    List NotificationRequeue → Except MailboxError Unit
  | [] => .ok ()
  | requeue :: rest => do
    p.checkWorkspace requeue.recipient.workspaceId
    refuseIf (requeue.recipient.isAdmin = true) .notificationRecipientNotAgent
    refuseIf (requeue.recipient ∈ seen)
      (.invalidNotificationFact "notifications_requeued contains a duplicate recipient")
    checkRequeueRecipients (requeue.recipient :: seen) rest

def validateNotificationRequeuesEnvelope (line : LedgerLine) (recordVersion : Nat)
    (messageId : MessageId) (requeues : List NotificationRequeue) :
    Except MailboxError Unit := do
  refuseIf (requeues.length < 2)
    (.invalidNotificationFact "notifications_requeued requires at least two recipients")
  checkRecordVersion recordVersion
  p.checkRequeueRecipients [] requeues
  refuseIf (line.id ≠ messageId.text) (.envelopeMismatch line.id messageId)
  refuseIf (line.sentFrom ≠ "cyclopsd")
    (.presentationMismatch .sentFrom (.text line.sentFrom) (.text "cyclopsd"))
  let expectedTo := requeues.map fun requeue => requeue.recipient.text
  refuseIf (line.sentTo ≠ expectedTo)
    (.presentationMismatch .sentTo (.debug line.sentTo) (.debug expectedTo))
  refuseIf (hasMessageFields line = true)
    (.uncanonicalRow ("notification row seq " ++ toString line.seq ++
      " contains message or delivery fields"))
  refuseIf (messageId ∉ p.messages) (.messageNotFound messageId)
  requeues.forM fun requeue =>
    refuseIf (p.getEntry requeue.recipient messageId = none)
      (.entryNotFound messageId requeue.recipient)

def requeueRecords (line : LedgerLine) (messageId : MessageId)
    (attempts : List NotificationAttemptId) :
    List NotificationRequeue → Except MailboxError (List (EntryKey × NotificationRecord))
  | [] => .ok []
  | requeue :: rest => do
    refuseIf (requeue.attemptId ∈ attempts) (.notificationAttemptReused requeue.attemptId)
    let requeued ← p.prepareNotificationRequeueRecord line messageId requeue
    let records ← requeueRecords line messageId (requeue.attemptId :: attempts) rest
    return requeued :: records

def prepareNotificationRequeues (line : LedgerLine) (recordVersion : Nat) (messageId : MessageId)
    (requeues : List NotificationRequeue) : Except MailboxError PreparedMutation := do
  p.validateNotificationRequeuesEnvelope line recordVersion messageId requeues
  let records ← p.requeueRecords line messageId [] requeues
  return .notificationRequeues records

/-! ## Clearances and withdrawals -/

/-- Validate an acknowledgement of one alarm. It redelivers nothing, so it does
not need the entry to be pending. -/
def prepareNotificationClear (line : LedgerLine) (attempt : AttemptRef) :
    Except MailboxError PreparedMutation := do
  p.validateNotificationEnvelope line attempt.recordVersion attempt.messageId attempt.recipient
  let current ← p.currentAttempt attempt (.notificationNotFound attempt.messageId attempt.recipient)
  refuseIf (current.state ≠ .attentionRequired) .notificationClearRequiresAttention
  return .notificationCleared attempt.attemptId

def checkClearedAttempt (cutoffMs : Option Nat) (attemptId : NotificationAttemptId) :
    Except MailboxError String := do
  refuseIf (attemptId ∈ p.clearedAttempts)
    (.invalidNotificationFact ("notification attempt '" ++ attemptId.text ++
      "' was already cleared"))
  let record ← orRefuse (p.notificationByAttempt attemptId) (.notificationAttemptUnknown attemptId)
  refuseIf (record.state ≠ .attentionRequired) .notificationClearRequiresAttention
  refuseIf (∃ cutoff ∈ cutoffMs, cutoff < record.updatedAt)
    (.invalidNotificationFact ("notification attempt '" ++ attemptId.text ++
      "' is newer than the confirmed cutoff"))
  return record.recipient.text

def prepareNotificationClears (line : LedgerLine) (recordVersion : Nat) (batchId : String)
    (attemptIds : List NotificationAttemptId) (operator : RecipientKey) (cutoffMs : Option Nat) :
    Except MailboxError PreparedMutation := do
  checkRecordVersion recordVersion
  refuseIf (operator ≠ .admin p.workspaceId) (.invalidNotificationFact
      "notification clearance operator is not the workspace administrator")
  refuseIf (batchId.toList = [] ∨ line.id ≠ batchId)
    (.invalidNotificationFact "notification clearance batch id does not match its ledger row")
  refuseIf (batchId ∈ p.clearanceBatches)
    (.invalidNotificationFact ("duplicate notification clearance batch '" ++ batchId ++ "'"))
  refuseIf (line.sentFrom ≠ operator.text ∨ hasMessageFields line = true)
    (.invalidNotificationFact "notification clearance batch has an invalid content envelope")
  refuseIf (attemptIds = []) (.invalidNotificationFact "notification clearance batch is empty")
  refuseIf (sortedAttempts attemptIds ≠ attemptIds)
    (.invalidNotificationFact "notification clearance attempts are not sorted and unique")
  let recipients ← attemptIds.mapM (p.checkClearedAttempt cutoffMs)
  refuseIf (line.sentTo ≠ sortedTexts recipients)
    (.invalidNotificationFact "notification clearance recipients do not match its attempts")
  return .notificationsCleared batchId attemptIds

/-- Validate an administrator's withdrawal of an attempt that has not written. -/
def prepareNotificationWithdrawal (line : LedgerLine) (attempt : AttemptRef)
    (operator : RecipientKey) (replaying : Bool) : Except MailboxError PreparedMutation := do
  checkRecordVersion attempt.recordVersion
  refuseIf (line.id ≠ attempt.messageId.text) (.envelopeMismatch line.id attempt.messageId)
  refuseIf (operator ≠ .admin p.workspaceId) .notificationWithdrawalOperatorInvalid
  refuseIf (line.sentFrom ≠ operator.text)
    (.presentationMismatch .sentFrom (.text line.sentFrom) (.text operator.text))
  refuseIf (line.sentTo ≠ [attempt.recipient.text])
    (.presentationMismatch .sentTo (.text (",".intercalate line.sentTo))
      (.text attempt.recipient.text))
  refuseIf (hasMessageFields line = true)
    (.uncanonicalRow ("notification withdrawal row seq " ++ toString line.seq ++
      " contains message fields"))
  let entry ← orRefuse (p.getEntry attempt.recipient attempt.messageId)
    (.entryNotFound attempt.messageId attempt.recipient)
  refuseIf (entry.state.isPending = false ∧ entry.state.isClaimed = false)
    (.notificationMessageNotPending attempt.messageId attempt.recipient)
  let current ← p.currentAttempt attempt (.notificationNotFound attempt.messageId attempt.recipient)
  refuseIf (current.state.canWithdrawBeforeWrite = false ∧
      ¬ (replaying = true ∧ withdrawnByClaimBeforeWrite current = true))
    .notificationWithdrawalRequiresPreWrite
  return .notificationWithdrawnBeforeWrite (attempt.recipient, attempt.messageId)
    (withdrawnRecord line attempt current)

end MailboxProjection

end Cyclops
