import Cyclops.Mailbox.Service

/-!
# Notification workers

The durable facts a delivery worker records for one attempt.
-/

namespace Cyclops

open Checked FiniteMap

structure NotificationContext where
  messageId : MessageId
  recipient : RecipientKey
  attemptId : NotificationAttemptId
  runEpoch : Nat

/-- The facts a worker records. -/
inductive WorkerStep where
  | recordGating
  | recordWriting (paneRoot leader agent : ProcessInstanceId) (manifest : String)
      (transport : NotificationTransport) (doorbellFormat : Option Nat)
  | recordWritingRaw
  | recordSubmitted
  | recordSubmittedUnverified
  | recordNotified (verifiedBy : Option VerifiedBy)
  | recordMailboxNotified
  | settleSubmittedClaim
  | recordAttention (cause : NotificationAttentionCause)
  | recordPreWriteBlock (cause : NotificationPreWriteCause)
      (observation : Option NotificationPreWriteObservation) (wakeBlock : Option MessageWakeBlock)
  | recordPasteCommandUnwritten

namespace NotificationContext

def notificationRunEpoch (p : MailboxProjection) (recipient : RecipientKey)
    (messageId : MessageId) (attemptId : NotificationAttemptId) : Nat :=
  (((p.notification recipient messageId).filter fun record =>
    record.attemptId = attemptId).map NotificationRecord.executionEpoch).getD 0

def new (p : MailboxProjection) (messageId : MessageId) (recipient : RecipientKey)
    (attemptId : NotificationAttemptId) : NotificationContext :=
  ⟨messageId, recipient, attemptId, notificationRunEpoch p recipient messageId attemptId⟩

variable (context : NotificationContext) (store : MessageStore)

def owns (record : NotificationRecord) : Bool :=
  record.attemptId == context.attemptId && record.executionEpoch == context.runEpoch

def current : Option NotificationRecord :=
  store.projection.notification context.recipient context.messageId

def entryAllowsNotification : Bool :=
  store.projection.entryIsPending context.recipient context.messageId

def ownedRecord : Except Failure NotificationRecord := do
  let current ← orRefuse (context.current store) (.adapter .noLongerCurrentBeforeWrite)
  refuseIf (context.owns current = false) (.adapter .noLongerCurrentBeforeWrite)
  return current

def advanceLocked (state : NotificationState) (binding : Option NotificationBinding)
    (cause : Option NotificationAttentionCause) (now : Nat) :
    Except Failure (Plan NotificationRecord) := do
  let _ ← context.ownedRecord store
  return store.advanceNotification context.messageId context.recipient context.attemptId state
    binding cause now

def recordGating (now : Nat) : Except Failure (Plan NotificationRecord) := do
  let current ← context.ownedRecord store
  refuseIf (context.entryAllowsNotification store = false) (.adapter .noLongerCurrentBeforeWrite)
  if current.state = .gating then return .answer current
  else
    refuseIf (current.state = .withdrawn ∨ current.state = .withdrawnByOperator ∨
        current.state = .superseded)
      (.adapter .noLongerCurrentBeforeWrite)
    refuseIf (current.state ≠ .queued) (.adapter (.terminalConflict current.state))
    context.advanceLocked store .gating none none now

def ownedGating : Except Failure NotificationRecord := do
  let current ← orRefuse ((context.current store).filter fun record =>
      context.owns record = true ∧ record.state = .gating)
    (.adapter .noLongerCurrentBeforeWrite)
  refuseIf (context.entryAllowsNotification store = false) (.adapter .noLongerCurrentBeforeWrite)
  return current

def recordWriting (paneRoot leader agent : ProcessInstanceId) (manifest : String)
    (transport : NotificationTransport) (doorbellFormat : Option Nat) (now : Nat) :
    Except Failure (Plan NotificationRecord) := do
  let manifest ← orRefuse (NotificationManifestId.new manifest) (.adapter .invalidBinding)
  let _ ← context.ownedGating store
  liftMailbox (store.advanceNotificationWithTransport context.messageId context.recipient
    context.attemptId .writing ⟨context.recipient, some paneRoot, some leader, agent, manifest⟩
    transport doorbellFormat now)

def recordWritingRaw (now : Nat) : Except Failure (Plan NotificationRecord) := do
  let _ ← context.ownedGating store
  return store.advanceNotificationRawWriting context.messageId context.recipient context.attemptId
    now

/-- A terminal state is recorded once: `some` when it is recorded already. -/
def alreadyTerminal (state : NotificationState) : Except Failure (Option NotificationRecord) :=
  match context.current store with
  | none => .ok none
  | some current => do
    refuseIf (context.owns current = false) (.adapter (.terminalConflict current.state))
    if current.state = state then return some current
    else
      refuseIf (current.state.isTerminal = true) (.adapter (.terminalConflict current.state))
      return none

def recordNotified (verifiedBy : Option VerifiedBy) (now : Nat) :
    Except Failure (Plan NotificationRecord) := do
  match ← context.alreadyTerminal store .notified with
  | some current => return .answer current
  | none =>
    return store.advanceNotificationNotified context.messageId context.recipient context.attemptId
      verifiedBy now

def recordMailboxNotified (now : Nat) : Except Failure (Plan NotificationRecord) := do
  let current ← context.ownedRecord store
  if current.state = .notified ∧ current.transport = .mailbox then return .answer current
  else
    refuseIf (current.state ≠ .queued) (.adapter (.terminalConflict current.state))
    refuseIf (context.entryAllowsNotification store = false) (.adapter .noLongerCurrentBeforeWrite)
    return store.advanceNotificationMailboxNotified context.messageId context.recipient
      context.attemptId now

def settleSubmittedClaim (now : Nat) : Except Failure (Plan Bool) := do
  let current ← context.ownedRecord store
  let claimed := store.projection.claimedByRecipient context.recipient context.messageId
  if current.state = .notified then return .answer claimed
  else if ¬ (current.state = .submitted ∨ current.state = .submittedUnverified) ∨
      claimed = false then
    return .answer false
  else
    let plan ← context.advanceLocked store .notified none none now
    return plan.map fun _ => true

def recordAttention (cause : NotificationAttentionCause) (now : Nat) :
    Except Failure (Plan NotificationRecord) := do
  match ← context.alreadyTerminal store .attentionRequired with
  | some current => return .answer current
  | none => context.advanceLocked store .attentionRequired none (some cause) now

def recordPreWriteBlockWithWakeBlock (cause : NotificationPreWriteCause)
    (observation : Option NotificationPreWriteObservation) (wakeBlock : Option MessageWakeBlock)
    (now : Nat) : Except Failure (Plan NotificationRecord) := do
  let current ← context.ownedRecord store
  if current.state = .blockedPreWrite then return .answer current
  else
    refuseIf (current.state ≠ .gating) (.adapter (.terminalConflict current.state))
    return store.blockNotificationBeforeWriteWithWakeBlock context.messageId context.recipient
      context.attemptId cause observation wakeBlock now

/-- Correct the write boundary after the pipe accepted no command bytes. -/
def recordPasteCommandUnwritten (now : Nat) : Except Failure (Plan NotificationRecord) := do
  let current ← context.ownedRecord store
  if current.state = .blockedPreWrite ∧ current.preWriteCause = some .pasteCommandUnwritten then
    return .answer current
  else
    refuseIf (current.state ≠ .writing) (.adapter (.terminalConflict current.state))
    return store.blockNotificationBeforeWriteWithWakeBlock context.messageId context.recipient
      context.attemptId .pasteCommandUnwritten none none now

/-- What a worker step decides. Its answer does not matter to the store. -/
def plan (step : WorkerStep) (now : Nat) : Except Failure (Plan Unit) :=
  match step with
  | .recordGating => discardAnswer (context.recordGating store now)
  | .recordWriting paneRoot leader agent manifest transport doorbellFormat =>
    discardAnswer
      (context.recordWriting store paneRoot leader agent manifest transport doorbellFormat now)
  | .recordWritingRaw => discardAnswer (context.recordWritingRaw store now)
  | .recordSubmitted => discardAnswer (context.advanceLocked store .submitted none none now)
  | .recordSubmittedUnverified =>
    discardAnswer (context.advanceLocked store .submittedUnverified none none now)
  | .recordNotified verifiedBy => discardAnswer (context.recordNotified store verifiedBy now)
  | .recordMailboxNotified => discardAnswer (context.recordMailboxNotified store now)
  | .settleSubmittedClaim => discardAnswer (context.settleSubmittedClaim store now)
  | .recordAttention cause => discardAnswer (context.recordAttention store cause now)
  | .recordPreWriteBlock cause observation wakeBlock =>
    discardAnswer (context.recordPreWriteBlockWithWakeBlock store cause observation wakeBlock now)
  | .recordPasteCommandUnwritten => discardAnswer (context.recordPasteCommandUnwritten store now)

end NotificationContext

end Cyclops
