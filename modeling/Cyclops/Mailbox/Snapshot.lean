import Cyclops.Mailbox.Commit

/-!
# Reads of the projection

The body-free views a caller is given: the pending list of a mailbox, the rows about attention, the
workspace snapshot, and the cursor read that follows it.
-/

namespace Cyclops

open Checked FiniteMap NotificationPreWriteObservation

/-! ## Wire vocabulary -/

/-- A message from where its reader stands. -/
inductive MessageDirection where
  | inbound | outbound | selfAddressed | workspace

def MessageDirection.of (sent received : Bool) : MessageDirection :=
  match sent, received with
  | true, true => selfAddressed
  | true, false => outbound
  | false, true => inbound
  | false, false => workspace

/-- The states a reader is shown. -/
inductive MessageNotificationState where
  | notStarted | queued | gating | writing | staged | submitted | submittedUnverified | notified
  | attentionRequired | superseded
deriving DecidableEq

def MessageNotificationState.ofState : NotificationState → MessageNotificationState
  | .queued => .queued
  | .gating => .gating
  | .blockedPreWrite => .gating
  | .quotaHeld => .attentionRequired
  | .quotaResetObserved => .attentionRequired
  | .writing => .writing
  | .staged => .staged
  | .submitting => .staged
  | .submitted => .submitted
  | .submittedUnverified => .submittedUnverified
  | .notified => .notified
  | .attentionRequired => .attentionRequired
  | .withdrawn => .notStarted
  | .withdrawnByOperator => .notStarted
  | .withdrawnAfterStaging => .staged
  | .superseded => .superseded

/-- How far a held wake is. -/
inductive MessageQuotaState where
  | held | resetObserved

def MessageQuotaState.fromNotification : NotificationState → Option MessageQuotaState
  | .quotaHeld => some .held
  | .quotaResetObserved => some .resetObserved
  | _ => none

/-- A wake that ended without being written. -/
inductive MessageNotificationSettlement where
  | withdrawnByClaim

def MessageNotificationSettlement.fromNotification :
    NotificationState → Option MessageNotificationSettlement
  | .withdrawn => some .withdrawnByClaim
  | .withdrawnAfterStaging => some .withdrawnByClaim
  | _ => none

structure MessageNotificationSummary where
  state : MessageNotificationState
  wakeBlock : Option MessageWakeBlock
  quotaState : Option MessageQuotaState
  settlement : Option MessageNotificationSettlement
  operatorWithdrawn : Option Bool
  attemptId : Option NotificationAttemptId
  cause : Option NotificationAttentionCause
  verifiedBy : Option VerifiedBy
  verifyOutcome : Option NotificationVerifyOutcome
  preWriteCause : Option NotificationPreWriteCause
  preWritePaneWidth : Option Nat
  preWriteRequiredPaneWidth : Option Nat
  preWriteBlock : Option String
  attentionCleared : Option Bool
  resolution : Option NotificationResolution
  resolutionIntent : Option NotificationResolution
  resolutionActionAccepted : Option NotificationResolution
  resolutionConsumptionObserved : Option NotificationResolutionConsumptionObservation
  updatedAt : Option Nat

structure MessageRecipientRoute where
  label : String
  paneId : Option TmuxPaneId

structure MessageRecipientSummary where
  recipient : RecipientKey
  label : String
  direction : MessageDirection
  needsAction : Bool
  canManageAttention : Bool
  canWithdrawNotification : Bool
  currentRoute : Option MessageRecipientRoute
  available : Bool
  mailbox : MailboxEntryState
  fifoPosition : Option Nat
  notification : MessageNotificationSummary

structure MessageSnapshotRow where
  messageId : MessageId
  seq : Nat
  ts : Nat
  kind : Kind
  direction : MessageDirection
  sender : RecipientKey
  senderLabel : String
  recipients : List MessageRecipientSummary
  subject : Option String
  replyTo : Option MessageId
  threadRoot : MessageId
  threadMessageCount : Nat
  active : Bool
  needsAction : Bool

structure MessagesSnapshotCounts where
  visibleMessages : Nat
  returnedMessages : Nat
  inboxMessages : Nat
  outboundMessages : Nat
  workMessages : Nat
  activeMessages : Nat
  settledMessages : Nat
  pendingEntries : Nat
  claimedEntries : Nat
  openAttentionEntries : Nat

/-- One attempt a human must act on. `sentTo` is the source's `to`. -/
structure OpenDelivery where
  id : String
  sentTo : String
  recipient : Option RecipientKey
  state : DeliveryState
  ts : Nat
  cause : Option String
  attemptId : Option NotificationAttemptId

structure MessagesSnapshotResult where
  workspaceId : WorkspaceId
  caller : Option RecipientKey
  workspaceSeq : Nat
  counts : MessagesSnapshotCounts
  rows : List MessageSnapshotRow
  mailboxAttention : List OpenDelivery

structure MessagesFollowResult where
  workspaceId : WorkspaceId
  afterSeq : Nat
  throughSeq : Nat
  hasMore : Bool
  rows : List MessageSnapshotRow

/-! ## Words for one record -/

/-- The prefix a pre-write hold carries in the legacy cause field. -/
def deliveryPreWriteCause (why : String) : String :=
  "blocked_pre_write:" ++ why

def preWriteReason (record : NotificationRecord) : String :=
  ((record.preWriteObservation.bind writeBlock).or
    ((record.preWriteCause.map NotificationPreWriteCause.wireName).or
      (record.wakeBlock.map MessageWakeBlock.wireName))).getD "unknown"

/-- The legacy state and cause of a record a human must act on. -/
def attentionWords (record : NotificationRecord) : DeliveryState × Option String :=
  match record.state with
  | .quotaHeld => (.parkedBlockedQuota, some "quota_held")
  | .quotaResetObserved => (.parkedBlockedQuota, some "quota_reset_observed")
  | .blockedPreWrite =>
    (.attentionRequired, some (deliveryPreWriteCause (preWriteReason record)))
  | _ =>
    (.attentionRequired, (record.cause.map NotificationAttentionCause.wireName).or
      (record.wakeBlock.map MessageWakeBlock.wireName))

def attentionRow (routes : Map RecipientKey MessageRecipientRoute) (record : NotificationRecord) :
    OpenDelivery where
  id := record.messageId.text
  sentTo := ((routes.lookup record.recipient).map MessageRecipientRoute.label).getD
    record.recipient.text
  recipient := some record.recipient
  state := (attentionWords record).1
  ts := record.updatedAt
  cause := (attentionWords record).2
  attemptId := some record.attemptId

def distinctRecords (attempts : List NotificationAttemptId) (keys : List EntryKey) :
    List NotificationRecord → List NotificationRecord
  | [] => []
  | record :: rest =>
    if record.attemptId ∈ attempts then distinctRecords attempts keys rest
    else if (record.recipient, record.messageId) ∈ keys then
      distinctRecords (record.attemptId :: attempts) keys rest
    else
      record :: distinctRecords (record.attemptId :: attempts)
        ((record.recipient, record.messageId) :: keys) rest

def notificationPreWriteWidthBlock (record : NotificationRecord) : Option (Nat × Nat) :=
  if record.state ≠ .blockedPreWrite ∨ record.preWriteCause ≠ some .writeReadinessChanged then none
  else
    (record.preWriteObservation.bind widths).filter fun widths =>
      widths.1 < widths.2

def noNotificationSummary : MessageNotificationSummary where
  state := .notStarted
  wakeBlock := none
  quotaState := none
  settlement := none
  operatorWithdrawn := none
  attemptId := none
  cause := none
  verifiedBy := none
  verifyOutcome := none
  preWriteCause := none
  preWritePaneWidth := none
  preWriteRequiredPaneWidth := none
  preWriteBlock := none
  attentionCleared := none
  resolution := none
  resolutionIntent := none
  resolutionActionAccepted := none
  resolutionConsumptionObserved := none
  updatedAt := none

def MessageNotificationSummary.attentionOpen (summary : MessageNotificationSummary) : Bool :=
  summary.attentionCleared == some false && summary.resolution.isNone

structure ProjectedRow where
  row : MessageSnapshotRow
  pendingEntries : Nat
  claimedEntries : Nat
  openAttentionEntries : Nat

def withMetadata (line : LedgerLine) : Except MailboxError (LedgerLine × MessageMetadata) := do
  let metadata ← extractMessageMetadata line
  return (line, metadata)

def visibleTo (caller : RecipientKey) (metadata : MessageMetadata) : Bool :=
  caller.isAdmin || metadata.sender == caller || decide (caller ∈ metadata.recipients)

def trimSettled : Nat → List MessageSnapshotRow → List MessageSnapshotRow
  | _, [] => []
  | skip, row :: rest =>
    if row.active then row :: trimSettled skip rest
    else
      match skip with
      | 0 => row :: trimSettled 0 rest
      | skip + 1 => trimSettled skip rest

/-- The largest 64-bit count: no settled row is trimmed under it. -/
def untrimmed : Nat := u64Bound - 1

/-! ## The pending list -/

namespace MailboxProjection

variable (p : MailboxProjection)

def listItem (recipient : RecipientKey) (entry : MailboxEntry) :
    Except MailboxError MailboxListItem := do
  let message ← orRefuse (p.messages.lookup entry.messageId) (.messageNotFound entry.messageId)
  let metadata ← extractMessageMetadata message
  let labels ← presentationLabels metadata.recipients metadata.presentation
  let index ← orRefuse (metadata.recipients.findIdx? fun key => key = recipient)
    (.entryNotFound entry.messageId recipient)
  let replyTo ← optionalMessageId message.replyTo
  return {
    entry
    kind := message.kind
    sender := metadata.sender
    senderLabel := labels.1
    recipientLabel := labels.2.getD index ""
    subject := message.subject
    replyTo
    threadRoot := metadata.threadRoot }

def listMailbox (recipient : RecipientKey) : Except MailboxError (List MailboxListItem) :=
  (p.getPending recipient).mapM (p.listItem recipient)

/-! ## Rows about attention -/

/-- The record that holds the head of a recipient's queue, when it is held. -/
def heldHead (recipient : RecipientKey) : Option NotificationRecord := do
  let head ← (p.getPending recipient).head?
  let record ← p.notifications.lookup (recipient, head.messageId)
  if record.attemptId ∈ p.resolvedAttempts then none
  else if record.state matches .attentionRequired | .quotaHeld | .quotaResetObserved |
      .blockedPreWrite then
    some record
  else none

def mailboxAttentionRows (routes : Map RecipientKey MessageRecipientRoute) : List OpenDelivery :=
  (distinctRecords [] [] (p.openAlarms ++ p.mailboxes.keys.filterMap p.heldHead)).map
    (attentionRow routes)

/-! ## The snapshot -/

/-- The summary of one record. A resolution hides what led to it. -/
def recordSummary (record : NotificationRecord) : MessageNotificationSummary :=
  let resolution := p.resolvedAttempts.lookup record.attemptId
  let widthBlock := notificationPreWriteWidthBlock record
  { state := .ofState record.state
    wakeBlock := record.wakeBlock.or
      (if p.attentionResolutionPending record.attemptId then some .attentionResolutionPending
        else none)
    quotaState := MessageQuotaState.fromNotification record.state
    settlement := MessageNotificationSettlement.fromNotification record.state
    operatorWithdrawn := if record.state = .withdrawnByOperator then some true else none
    attemptId := some record.attemptId
    cause := record.cause
    verifiedBy := record.verifiedBy
    verifyOutcome := record.verifyOutcome
    preWriteCause := record.preWriteCause
    preWritePaneWidth := widthBlock.map Prod.fst
    preWriteRequiredPaneWidth := widthBlock.map Prod.snd
    preWriteBlock := record.preWriteObservation.bind writeBlock
    attentionCleared :=
      if record.state = .attentionRequired then some (p.alarmCleared record.attemptId) else none
    resolution
    resolutionIntent :=
      if resolution.isNone then p.resolutionIntents.lookup record.attemptId else none
    resolutionActionAccepted :=
      if resolution.isNone then p.resolutionActionsAccepted.lookup record.attemptId else none
    resolutionConsumptionObserved :=
      if resolution.isNone then
        (p.resolutionConsumptions.lookup record.attemptId).filter fun observation =>
          observation.evidence.provesExactConsumption
      else none
    updatedAt := some record.updatedAt }

def notificationSummary (record : Option NotificationRecord) : MessageNotificationSummary :=
  match record with
  | some record => p.recordSummary record
  | none => noNotificationSummary

def fifoPosition (recipient : RecipientKey) (messageId : MessageId) : Option Nat :=
  (((p.getMailbox recipient).filter fun entry =>
    entry.state.isPending && !p.notificationWithdrawnByOperator recipient entry.messageId).findIdx?
    fun entry => entry.messageId = messageId).map fun index => index + 1

def recipientSummary (caller : RecipientKey) (routes : Map RecipientKey MessageRecipientRoute)
    (messageId : MessageId) (sender recipient : RecipientKey) (label : String)
    (entry : MailboxEntry) : MessageRecipientSummary :=
  let record := p.notification recipient messageId
  let notification := p.notificationSummary record
  let attentionOpen := notification.state == .attentionRequired && notification.attentionOpen
  let preWriteBlocked :=
    notification.preWriteCause.isSome && notification.operatorWithdrawn != some true
  { recipient
    label
    direction := .of (sender == caller) (recipient == caller)
    needsAction := (recipient == caller && entry.state.isPending) ||
      (caller.isAdmin && (attentionOpen || notification.quotaState.isSome || preWriteBlocked))
    canManageAttention := caller.isAdmin && attentionOpen && notification.resolutionIntent.isNone
    canWithdrawNotification := caller.isAdmin && entry.state.isPending &&
      match record with
      | some record => record.state.canWithdrawBeforeWrite
      | none => false
    currentRoute := routes.lookup recipient
    available := recipient.isAdmin || decide (recipient ∈ routes)
    mailbox := entry.state
    fifoPosition := p.fifoPosition recipient messageId
    notification }

def recipientSummaries (caller : RecipientKey) (routes : Map RecipientKey MessageRecipientRoute)
    (messageId : MessageId) (sender : RecipientKey) :
    List (RecipientKey × String) → Except MailboxError (List MessageRecipientSummary)
  | [] => .ok []
  | (recipient, label) :: rest => do
    let entry ← orRefuse (p.getEntry recipient messageId) (.entryNotFound messageId recipient)
    let summaries ← recipientSummaries caller routes messageId sender rest
    return p.recipientSummary caller routes messageId sender recipient label entry :: summaries

/-- An alarm nobody has acknowledged or resolved, or a quota hold. -/
def openAttentionEntry (messageId : MessageId) (summary : MessageRecipientSummary) : Bool :=
  match p.notification summary.recipient messageId with
  | some record =>
    summary.notification.attentionOpen || record.state == .quotaHeld ||
      record.state == .quotaResetObserved
  | none => false

def activeEntry (messageId : MessageId) (summary : MessageRecipientSummary) : Bool :=
  summary.mailbox.isPending || p.openAttentionEntry messageId summary ||
    match p.notification summary.recipient messageId with
    | some record => !record.state.isTerminal
    | none => false

def snapshotRow (caller : RecipientKey) (routes : Map RecipientKey MessageRecipientRoute)
    (threadCount : MessageId → Nat) (message : LedgerLine × MessageMetadata) :
    Except MailboxError ProjectedRow := do
  let (line, metadata) := message
  let messageId ← liftType (MessageId.new line.id)
  let labels ← presentationLabels metadata.recipients metadata.presentation
  let recipients ← p.recipientSummaries caller routes messageId metadata.sender
    (metadata.recipients.zip labels.2)
  let replyTo ← optionalMessageId line.replyTo
  let callerPending := recipients.any fun summary =>
    summary.mailbox.isPending && summary.recipient == caller
  let adminWork := recipients.any fun summary =>
    summary.canManageAttention || summary.notification.preWriteCause.isSome
  return {
    row := {
      messageId
      seq := line.seq
      ts := line.ts
      kind := line.kind
      direction := .of (metadata.sender == caller) (decide (caller ∈ metadata.recipients))
      sender := metadata.sender
      senderLabel := metadata.presentation.senderLabel
      recipients
      subject := line.subject
      replyTo
      threadRoot := metadata.threadRoot
      threadMessageCount := threadCount metadata.threadRoot
      active := recipients.any (p.activeEntry messageId)
      needsAction := callerPending || (caller.isAdmin && adminWork) }
    pendingEntries := recipients.countP fun summary => summary.mailbox.isPending
    claimedEntries := recipients.countP fun summary => summary.mailbox.isClaimed
    openAttentionEntries := recipients.countP (p.openAttentionEntry messageId) }

def visibleMessages (caller : RecipientKey) :
    Except MailboxError (List (LedgerLine × MessageMetadata)) := do
  let messages ← (values p.messages).mapM withMetadata
  return (messages.filter fun message => visibleTo caller message.2).insertionSort
    fun a b => a.1.seq ≤ b.1.seq

/-- Every active message and the most recent settled ones, without their bodies. -/
def messagesSnapshot (caller : RecipientKey) (recentSettled : Nat)
    (routes : Map RecipientKey MessageRecipientRoute) :
    Except MailboxError MessagesSnapshotResult := do
  p.checkWorkspace caller.workspaceId
  let visible ← p.visibleMessages caller
  let threadCount := fun root => visible.countP fun message => message.2.threadRoot = root
  let projected ← visible.mapM (p.snapshotRow caller routes threadCount)
  let activeMessages := projected.countP fun entry => entry.row.active
  let settledMessages := projected.length - activeMessages
  let rows := trimSettled (settledMessages - recentSettled) (projected.map ProjectedRow.row)
  return {
    workspaceId := p.workspaceId
    caller := some caller
    workspaceSeq := p.head
    counts := {
      visibleMessages := activeMessages + settledMessages
      returnedMessages := rows.length
      inboxMessages := visible.countP fun message => decide (caller ∈ message.2.recipients)
      outboundMessages := visible.countP fun message => message.2.sender == caller
      workMessages := projected.countP fun entry => entry.row.needsAction
      activeMessages
      settledMessages
      pendingEntries := (projected.map ProjectedRow.pendingEntries).sum
      claimedEntries := (projected.map ProjectedRow.claimedEntries).sum
      openAttentionEntries := (projected.map ProjectedRow.openAttentionEntries).sum }
    rows
    mailboxAttention := p.mailboxAttentionRows routes }

/-- One page of the visible messages after a cursor. -/
def messagesFollow (caller : RecipientKey) (afterSeq limit : Nat)
    (routes : Map RecipientKey MessageRecipientRoute) :
    Except MailboxError MessagesFollowResult := do
  let snapshot ← p.messagesSnapshot caller untrimmed routes
  refuseIf (snapshot.workspaceSeq < afterSeq) (.invalidCursor afterSeq snapshot.workspaceSeq)
  let taken := (snapshot.rows.filter fun row => afterSeq < row.seq).take (limit + 1)
  let hasMore := limit < taken.length
  let rows := if hasMore then taken.dropLast else taken
  return {
    workspaceId := p.workspaceId
    afterSeq
    throughSeq :=
      if hasMore then (rows.getLast?.map MessageSnapshotRow.seq).getD afterSeq
      else snapshot.workspaceSeq
    hasMore
    rows }

end MailboxProjection

end Cyclops
