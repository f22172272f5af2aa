import Cyclops.Mailbox.Store

/-!
# Claims and notification facts of the store

The store operations that append state rows: claims, notification transitions, requeues, clearances,
withdrawals, and the recovery of the attempts a restart left ambiguous.
-/

namespace Cyclops

open Checked FiniteMap

/-! ## Claims -/

structure InboxMessage where
  messageId : MessageId
  kind : Kind
  recipientLabel : Option String
  sender : Option RecipientKey
  senderLabel : String
  subject : Option String
  summary : Option String
  body : Option String
  replyTo : Option MessageId
  threadRoot : MessageId

/-- The answer to a claim. -/
inductive ClaimOutcome where
  | claimed (entry : MailboxEntry) (message : InboxMessage) (skippedOldest : Option MessageId)
      (withdrawnAttempt consumedDoorbellAttempt : Option NotificationAttemptId)
  | alreadyClaimed (entry : MailboxEntry) (message : InboxMessage)
      (withdrawnAttempt consumedDoorbellAttempt : Option NotificationAttemptId)

def inboxMessage (line : LedgerLine) (claimant : RecipientKey) :
    Except MailboxError InboxMessage := do
  let metadata ← extractMessageMetadata line
  let messageId ← liftType (MessageId.new line.id)
  let replyTo ← optionalMessageId line.replyTo
  return {
    messageId
    kind := line.kind
    recipientLabel := (metadata.presentation.recipientLabels.find? fun presentation =>
      presentation.recipient = claimant).map RecipientPresentation.label
    sender := some metadata.sender
    senderLabel := metadata.presentation.senderLabel
    subject := line.subject
    summary := metadata.summary
    body := line.body
    replyTo
    threadRoot := metadata.threadRoot }

def changedByClaim (record : NotificationRecord) : Bool :=
  record.state.settledByClaim record.transport != record.state

namespace MessageStore

variable (store : MessageStore)

def skippedOldest (claimant : RecipientKey) (messageId : MessageId) : Option MessageId :=
  ((store.projection.getPending claimant).head?.map MailboxEntry.messageId).filter
    fun oldest => oldest ≠ messageId

def consumedDoorbellAttempt (recipient : RecipientKey) (messageId : MessageId) :
    Option NotificationAttemptId :=
  ((store.projection.notification recipient messageId).filter fun record =>
    record.transport = .doorbell ∧
      (record.state = .submitted ∨ record.state = .submittedUnverified ∨
        (record.state = .notified ∧
          store.projection.claimSequences.lookup (recipient, messageId) =
            some record.updatedSeq))).map NotificationRecord.attemptId

def withdrawnAttempt (recipient : RecipientKey) (messageId : MessageId) :
    Option NotificationAttemptId :=
  ((store.projection.notification recipient messageId).filter fun record =>
    record.state.settledByClaim record.transport = .withdrawn).map NotificationRecord.attemptId

/-- Claim one message. Re-claiming returns the same entry and payload. -/
def claimAt (claimant : RecipientKey) (messageId : MessageId) (ts now : Nat) :
    Except Failure (Plan ClaimOutcome) := do
  let entry ← liftMailbox (orRefuse (store.projection.getEntry claimant messageId)
    (.entryNotFound messageId claimant))
  let line ← liftMailbox (orRefuse (store.projection.getMessage messageId)
    (.messageNotFound messageId))
  let message ← liftMailbox (inboxMessage line claimant)
  let consumed := store.consumedDoorbellAttempt entry.recipient messageId
  match entry.state with
  | .claimed existing _ =>
    if existing = claimant then return .answer (.alreadyClaimed entry message none consumed)
    else .error (.mailbox (.alreadyClaimed messageId entry.recipient existing))
  | .superseded _ _ => .error (.mailbox (.messageNotPending messageId))
  | .deliveredDirect _ _ => .error (.mailbox (.messageNotPending messageId))
  | .pending =>
    let fact := MailboxFact.messageClaimed canonicalRecordVersion messageId entry.recipient claimant
    let row := store.stateRow messageId.text (stamp ts now) claimant.text [] (.mailbox fact)
    return .append row fun p => (p.getEntry claimant messageId).map fun updated =>
      .claimed updated message (store.skippedOldest claimant messageId)
        (store.withdrawnAttempt entry.recipient messageId) consumed

/-- Resolve a reserved attempt locator without shadowing legacy messages. -/
def claimNotificationLocator (claimant : RecipientKey) (locator : MessageId)
    (attemptId : NotificationAttemptId) (now : Nat) :
    Except Failure (Plan (ClaimOutcome × Bool)) := do
  if attemptId ∉ store.projection.notificationAttempts then
    let changed := ((store.projection.notification claimant locator).map changedByClaim).getD false
    let plan ← store.claimAt claimant locator now now
    return plan.map fun outcome => (outcome, changed)
  else
    let record ← liftMailbox (orRefuse
      ((store.projection.notificationByAttempt attemptId).filter fun record =>
        doorbellFormatNamesExactAttempt record.doorbellFormat = true ∧
          record.recipient = claimant)
      (.notificationAttemptUnknown attemptId))
    liftMailbox (refuseIf (locator ∈ store.projection.messages)
      (.notificationAttemptClaimLocatorConflict locator))
    let plan ← store.claimAt claimant record.messageId now now
    return plan.map fun outcome => (outcome, changedByClaim record)

/-! ## Notification facts -/

def appendNotificationFactAt (messageId : MessageId) (recipient : RecipientKey)
    (fact : NotificationFact) (ts now : Nat) : Plan NotificationRecord :=
  .append (store.stateRow messageId.text (stamp ts now) "cyclopsd" [recipient.text]
      (.notification fact))
    fun p => p.notification recipient messageId

def bareTransition (messageId : MessageId) (recipient : RecipientKey)
    (attemptId : NotificationAttemptId) (state : NotificationState) : NotificationTransition where
  recordVersion := canonicalRecordVersion
  attemptId
  messageId
  recipient
  state
  binding := none
  transport := none
  doorbellFormat := none
  cause := none
  verifiedBy := none
  verifyOutcome := none
  preWriteCause := none
  wakeBlock := none
  preWriteObservation := none

def appendNotificationTransitionFullAt (fact : NotificationTransition) (ts now : Nat) :
    Plan NotificationRecord :=
  store.appendNotificationFactAt fact.messageId fact.recipient (.notificationTransition fact) ts now

def appendNotificationTransitionWithTransportAt (messageId : MessageId) (recipient : RecipientKey)
    (attemptId : NotificationAttemptId) (state : NotificationState)
    (binding : Option NotificationBinding) (transport : Option NotificationTransport)
    (doorbellFormat : Option Nat) (cause : Option NotificationAttentionCause) (ts now : Nat) :
    Plan NotificationRecord :=
  store.appendNotificationTransitionFullAt { bareTransition messageId recipient attemptId state with
      binding
      transport
      doorbellFormat
      cause
      verifyOutcome :=
        if state = .attentionRequired ∧ cause = some .verifyFailed then
          some NotificationVerifyOutcome.ambiguous
        else none } ts now

def queueNotification (messageId : MessageId) (recipient : RecipientKey)
    (attemptId : NotificationAttemptId) (now : Nat) : Plan NotificationRecord :=
  store.appendNotificationTransitionWithTransportAt messageId recipient attemptId .queued none none
    none none now now

def advanceNotification (messageId : MessageId) (recipient : RecipientKey)
    (attemptId : NotificationAttemptId) (state : NotificationState)
    (binding : Option NotificationBinding) (cause : Option NotificationAttentionCause)
    (now : Nat) : Plan NotificationRecord :=
  store.appendNotificationTransitionWithTransportAt messageId recipient attemptId state binding
    none none cause now now

def blockNotificationBeforeWriteWithWakeBlock (messageId : MessageId) (recipient : RecipientKey)
    (attemptId : NotificationAttemptId) (cause : NotificationPreWriteCause)
    (observation : Option NotificationPreWriteObservation) (wakeBlock : Option MessageWakeBlock)
    (now : Nat) : Plan NotificationRecord :=
  store.appendNotificationTransitionFullAt
    { bareTransition messageId recipient attemptId .blockedPreWrite with
      preWriteCause := some cause
      wakeBlock
      preWriteObservation := observation } now now

def supportedDoorbellFormat (format : Nat) : Bool :=
  format matches 1 | 2 | 3 | 4

def advanceNotificationWithTransport (messageId : MessageId) (recipient : RecipientKey)
    (attemptId : NotificationAttemptId) (state : NotificationState)
    (binding : NotificationBinding) (transport : NotificationTransport)
    (doorbellFormat : Option Nat) (now : Nat) : Except MailboxError (Plan NotificationRecord) :=
  match doorbellFormat.filter fun format => supportedDoorbellFormat format = false with
  | some format => .error (.unsupportedNotificationDoorbellFormat format)
  | none => .ok (store.appendNotificationTransitionWithTransportAt messageId recipient attemptId
      state (some binding) (some transport) doorbellFormat none now now)

def advanceNotificationRawWriting (messageId : MessageId) (recipient : RecipientKey)
    (attemptId : NotificationAttemptId) (now : Nat) : Plan NotificationRecord :=
  store.appendNotificationTransitionWithTransportAt messageId recipient attemptId .writing none
    (some .raw) none none now now

def advanceNotificationNotified (messageId : MessageId) (recipient : RecipientKey)
    (attemptId : NotificationAttemptId) (verifiedBy : Option VerifiedBy) (now : Nat) :
    Plan NotificationRecord :=
  store.appendNotificationTransitionFullAt
    { bareTransition messageId recipient attemptId .notified with verifiedBy } now now

def advanceNotificationMailboxNotified (messageId : MessageId) (recipient : RecipientKey)
    (attemptId : NotificationAttemptId) (now : Nat) : Plan NotificationRecord :=
  store.appendNotificationTransitionWithTransportAt messageId recipient attemptId .notified none
    (some .mailbox) none none now now

/-! ## Requeues, clearances and withdrawals -/

def requeueNotificationAt (messageId : MessageId) (recipient : RecipientKey)
    (priorAttemptId attemptId : NotificationAttemptId) (ts now : Nat) : Plan NotificationRecord :=
  store.appendNotificationFactAt messageId recipient
    (.notificationRequeued priorAttemptId ⟨canonicalRecordVersion, attemptId, messageId, recipient⟩)
    ts now

def requeueNotificationsAt (messageId : MessageId) (requeues : List NotificationRequeue)
    (ts now : Nat) : Plan (List NotificationRecord) :=
  .append (store.stateRow messageId.text (stamp ts now) "cyclopsd"
      (requeues.map fun requeue => requeue.recipient.text)
      (.notification (.notificationsRequeued canonicalRecordVersion messageId requeues)))
    fun p => requeues.mapM fun requeue => p.notification requeue.recipient messageId

def requeueNotifications (messageId : MessageId) (requeues : List NotificationRequeue)
    (now : Nat) : Plan (List NotificationRecord) :=
  match requeues with
  | [] => .answer []
  | [requeue] =>
    (store.requeueNotificationAt messageId requeue.recipient requeue.priorAttemptId
      requeue.attemptId now now).map fun record => [record]
  | requeues => store.requeueNotificationsAt messageId requeues now now

/-- Record an operator's acknowledgement of one attempt in attention. -/
def clearNotificationAt (messageId : MessageId) (recipient : RecipientKey)
    (attemptId : NotificationAttemptId) (ts now : Nat) : Plan NotificationRecord :=
  let repeated := (store.projection.notification recipient messageId).filter fun record =>
    store.projection.alarmCleared attemptId = true ∧ record.attemptId = attemptId
  match repeated with
  | some record => .answer record
  | none => store.appendNotificationFactAt messageId recipient
      (.notificationCleared ⟨canonicalRecordVersion, attemptId, messageId, recipient⟩) ts now

def clearedRecipient (attemptId : NotificationAttemptId) : Except MailboxError String := do
  let record ← orRefuse (store.projection.notificationByAttempt attemptId)
    (.notificationAttemptUnknown attemptId)
  return record.recipient.text

/-- Acknowledge several attention attempts with one durable journal fact. The
batch id is made of a random draw. -/
def clearNotificationsAt (operator : RecipientKey) (attemptIds : List NotificationAttemptId)
    (cutoffMs : Option Nat) (ts now : Nat) (draw : Uuid) : Except MailboxError (Plan Unit) := do
  refuseIf (operator ≠ .admin store.projection.workspaceId) .notificationClearOperatorInvalid
  if attemptIds = [] then return .answer ()
  else
    let recipients ← attemptIds.mapM store.clearedRecipient
    let batchId := "clear-" ++ String.ofList draw.simple
    let fact := NotificationFact.notificationsCleared canonicalRecordVersion batchId attemptIds
      operator cutoffMs
    return .append (store.stateRow batchId (stamp ts now) operator.text (sortedTexts recipients)
        (.notification fact))
      fun _ => some ()

/-- Withdraw one exact unwritten notification without changing its mailbox entry. -/
def withdrawNotificationBeforeWrite (operator recipient : RecipientKey)
    (attemptId : NotificationAttemptId) (now : Nat) :
    Except MailboxError (Plan NotificationRecord) := do
  refuseIf (operator ≠ .admin store.projection.workspaceId) .notificationWithdrawalOperatorInvalid
  let current ← orRefuse (store.projection.notificationByAttempt attemptId)
    (.notificationAttemptUnknown attemptId)
  refuseIf (current.recipient ≠ recipient)
    (.notificationWithdrawalRecipientMismatch recipient current.recipient)
  if current.state = .withdrawnByOperator ∨ withdrawnByClaimBeforeWrite current = true then
    return .answer current
  else
    refuseIf (current.state.canWithdrawBeforeWrite = false) .notificationWithdrawalRequiresPreWrite
    let fact := NotificationFact.notificationWithdrawnBeforeWrite
      ⟨canonicalRecordVersion, attemptId, current.messageId, recipient⟩ operator
    return .append (store.stateRow current.messageId.text (max now 1) operator.text [recipient.text]
        (.notification fact))
      fun p => p.notification recipient current.messageId

/-! ## Recovery after a restart -/

def unresolvedAfterRestart (p : MailboxProjection) : List NotificationRecord :=
  (values p.notifications).filter fun record =>
    record.state matches .writing | .staged | .submitting | .submitted | .submittedUnverified

def recoverNotification (record : NotificationRecord) (now : Nat) : Plan NotificationRecord :=
  if (record.state = .submitted ∨ record.state = .submittedUnverified) ∧
      record.transport = .doorbell ∧
      store.projection.entryIsClaimed record.recipient record.messageId = true then
    store.advanceNotificationNotified record.messageId record.recipient record.attemptId none now
  else
    store.advanceNotification record.messageId record.recipient record.attemptId
      .attentionRequired none (some .daemonRestart) now

def recoverNotifications [DigestScheme] (env : NotificationAttemptId → Env) :
    List NotificationRecord → MessageStore → MessageStore × Except Failure (List NotificationRecord)
  | [], store => (store, .ok [])
  | record :: rest, store =>
    match store.perform (.ok (store.recoverNotification record (env record.attemptId).now))
        (env record.attemptId) with
    | (store, .error error) => (store, .error error)
    | (store, .ok recovered) =>
      match recoverNotifications env rest store with
      | (store, .error error) => (store, .error error)
      | (store, .ok records) => (store, .ok (recovered :: records))

structure IterationOrder where
  apply : List NotificationRecord → List NotificationRecord
  perm : ∀ records, (apply records).Perm records

/-- Resolve the attempts left ambiguous by a restart, in some order. -/
def recoverNotificationsAfterRestart [DigestScheme] (order : IterationOrder)
    (env : NotificationAttemptId → Env) : MessageStore × Except Failure (List NotificationRecord) :=
  recoverNotifications env (order.apply (unresolvedAfterRestart store.projection)) store

end MessageStore

end Cyclops
