import Cyclops.Mailbox.PrepareResolution

/-!
# The effect of an accepted row

`commitLine` applies the mutation of a validated row.
-/

namespace Cyclops

open Checked FiniteMap

def isBoundWrite (record : NotificationRecord) : Bool :=
  record.state == .writing && record.binding.isSome

/-- A write whose transport proved that no byte of its command was written. -/
def isProvenUnwritten (record : NotificationRecord) : Bool :=
  record.state == .blockedPreWrite && record.preWriteCause == some .pasteCommandUnwritten

namespace MailboxProjection

variable (p : MailboxProjection)

/-! ## Elementary changes -/

def advanced (line : LedgerLine) : MailboxProjection :=
  { p with lastWorkspaceSeq := some line.seq }

def setEntryState (recipient : RecipientKey) (messageId : MessageId)
    (state : MailboxEntryState) : Option MailboxProjection := do
  let seq ← p.mailboxIndex.lookup (recipient, messageId)
  let mailbox ← p.mailboxes.lookup recipient
  let entry ← mailbox.lookup seq
  return { p with
    mailboxes := p.mailboxes.insert recipient (mailbox.insert seq { entry with state }) }

def addEntry (line : LedgerLine) (messageId : MessageId) (recipient : RecipientKey) :
    MailboxProjection :=
  { p with
    mailboxes := p.mailboxes.insert recipient
      (((p.mailboxes.lookup recipient).getD ∅).insert line.seq
        { messageId, recipient, state := .pending, seq := line.seq, createdAt := line.ts })
    mailboxIndex := p.mailboxIndex.insert (recipient, messageId) line.seq }

def putNotification (key : EntryKey) (record : NotificationRecord) : MailboxProjection :=
  { p with notifications := p.notifications.insert key record }

def putUpdate (update : Option NotificationProjectionUpdate) : MailboxProjection :=
  match update with
  | some update => p.putNotification update.key update.record
  | none => p

def startAttempt (key : EntryKey) (record : NotificationRecord) : MailboxProjection :=
  { p with
    notificationAttempts := insert record.attemptId p.notificationAttempts
    notifications := p.notifications.insert key record }

def releaseBarrier (attemptId : NotificationAttemptId) : MailboxProjection :=
  { p with activeNotificationBarriers := p.activeNotificationBarriers.erase attemptId }

def refreshBarrier (record : NotificationRecord) : MailboxProjection :=
  if record.attemptId ∈ p.activeNotificationBarriers then
    { p with
      activeNotificationBarriers := p.activeNotificationBarriers.insert record.attemptId record }
  else p

def putSettled (update : Option NotificationProjectionUpdate) : MailboxProjection :=
  match update with
  | some update => (p.refreshBarrier update.record).putNotification update.key update.record
  | none => p

def resolveAttempt (attemptId : NotificationAttemptId) (resolution : NotificationResolution) :
    MailboxProjection :=
  { p with
    resolvedAttempts := p.resolvedAttempts.insert attemptId resolution
    forcedResolutionIntents := p.forcedResolutionIntents.erase attemptId
    activeNotificationBarriers := p.activeNotificationBarriers.erase attemptId }

/-! ## The arms of `commitLine` -/

def closeSuperseded (line : LedgerLine) (messageId : MessageId) (metadata : MessageMetadata) :
    Option MailboxProjection :=
  match metadata.supersedes with
  | none => some p
  | some superseded => do
    let recipient ← metadata.recipients.head?
    p.setEntryState recipient superseded (.superseded messageId line.ts)

def indexClientKey (messageId : MessageId) (metadata : MessageMetadata) : MailboxProjection :=
  match metadata.clientKey with
  | some key =>
    { p with
      idempotencyIndex :=
        p.idempotencyIndex.insert (metadata.sender, key) (messageId, metadata.requestDigest) }
  | none => p

def commitMessage (line : LedgerLine) (messageId : MessageId) (metadata : MessageMetadata)
    (superseded : Option NotificationProjectionUpdate) : Option MailboxProjection := do
  let closed ← p.closeSuperseded line messageId metadata
  let indexed := closed.indexClientKey messageId metadata
  let filed := metadata.recipients.foldl (fun q => q.addEntry line messageId) indexed
  let updated := filed.putUpdate superseded
  return { updated with messages := updated.messages.insert messageId line }

def commitClaim (line : LedgerLine) (messageId : MessageId) (recipient claimant : RecipientKey)
    (update : Option NotificationProjectionUpdate) : Option MailboxProjection := do
  let sequenced :=
    { p with claimSequences := p.claimSequences.insert (recipient, messageId) line.seq }
  let claimed ← sequenced.setEntryState recipient messageId (.claimed claimant line.ts)
  return claimed.putSettled update

/-- A later admitted write proves that the recipient's earlier barriers released. -/
def crossWriteBoundary (line : LedgerLine) (record : NotificationRecord) : MailboxProjection :=
  { p with
    notificationWriteSequences := p.notificationWriteSequences.insert record.attemptId line.seq
    activeNotificationBarriers :=
      (retain (fun attemptId active =>
          attemptId = record.attemptId || active.recipient != record.recipient)
        p.activeNotificationBarriers).insert record.attemptId record }

def uncrossWriteBoundary (attemptId : NotificationAttemptId) : MailboxProjection :=
  { p with
    activeNotificationBarriers := p.activeNotificationBarriers.erase attemptId
    notificationWriteSequences := p.notificationWriteSequences.erase attemptId }

def trackBarrier (line : LedgerLine) (record : NotificationRecord) : MailboxProjection :=
  if isBoundWrite record then p.crossWriteBoundary line record
  else if isProvenUnwritten record then p.uncrossWriteBoundary record.attemptId
  else p.refreshBarrier record

def commitNotification (line : LedgerLine) (key : EntryKey) (record : NotificationRecord)
    (newAttempt : Bool) : MailboxProjection :=
  let tracked := p.trackBarrier line record
  if newAttempt then tracked.startAttempt key record else tracked.putNotification key record

def commitLine (line : LedgerLine) (prepared : PreparedMutation) : Option MailboxProjection :=
  let q := p.advanced line
  match prepared with
  | .message messageId metadata superseded => q.commitMessage line messageId metadata superseded
  | .claim messageId recipient claimant update =>
    q.commitClaim line messageId recipient claimant update
  | .deliveredDirect messageId recipient attemptId =>
    q.setEntryState recipient messageId (.deliveredDirect attemptId line.ts)
  | .notification key record newAttempt => some (q.commitNotification line key record newAttempt)
  | .notificationRequeues records =>
    some (records.foldl (fun q requeued => q.startAttempt requeued.1 requeued.2) q)
  | .notificationCleared attemptId =>
    some { q with clearedAttempts := insert attemptId q.clearedAttempts }
  | .notificationsCleared batchId attemptIds =>
    some { q with
      clearanceBatches := insert batchId q.clearanceBatches
      clearedAttempts := q.clearedAttempts ∪ attemptIds.toFinset }
  | .notificationWithdrawnBeforeWrite key record => some (q.putNotification key record)
  | .notificationResolutionIntent attemptId resolution forced =>
    some { q with
      resolutionIntents := q.resolutionIntents.insert attemptId resolution
      forcedResolutionIntents :=
        if forced then insert attemptId q.forcedResolutionIntents
        else q.forcedResolutionIntents }
  | .notificationResolutionActionReserved attemptId resolution =>
    some { q with
      resolutionActionReservations := q.resolutionActionReservations.insert attemptId resolution
      resolutionActionReservationSequences :=
        q.resolutionActionReservationSequences.insert attemptId line.seq }
  | .notificationResolutionActionAccepted attemptId resolution =>
    some { q with
      resolutionActionsAccepted := q.resolutionActionsAccepted.insert attemptId resolution
      resolutionActionSequences := q.resolutionActionSequences.insert attemptId line.seq }
  | .notificationResolutionConsumptionObserved attemptId observation =>
    some { q with
      resolutionConsumptions := q.resolutionConsumptions.insert attemptId observation }
  | .notificationResolutionIntentWithdrawn attemptId =>
    some { q with
      resolutionIntents := q.resolutionIntents.erase attemptId
      forcedResolutionIntents := q.forcedResolutionIntents.erase attemptId }
  | .notificationResolvedWithoutTerminalAction attemptId resolution =>
    some (q.resolveAttempt attemptId resolution)
  | .notificationResolved attemptId resolution => some (q.resolveAttempt attemptId resolution)
  | .notificationClaimedStagedCleared key record attemptId =>
    some ((q.putNotification key record).releaseBarrier attemptId)
  | .notificationClaimedAckTimeoutReconciled key record attemptId =>
    let released := (q.putNotification key record).releaseBarrier attemptId
    some { released with
      claimedAckTimeoutReconciliations :=
        insert attemptId released.claimedAckTimeoutReconciliations }
  | .notificationBarrierRetired attemptId => some (q.releaseBarrier attemptId)

end MailboxProjection

/-! ## Applying rows -/

/-- Why a row was not applied. -/
inductive ApplyFailure where
  | refused (error : MailboxError)
  | panicked

def MailboxProjection.applyInner [DigestScheme] (replaying : Bool) (p : MailboxProjection)
    (line : LedgerLine) : Except ApplyFailure MailboxProjection :=
  match p.prepareLineInner line replaying with
  | .error error => .error (.refused error)
  | .ok prepared => orRefuse (p.commitLine line prepared) .panicked

def MailboxProjection.applyReplayedOwned [DigestScheme] :
    MailboxProjection → LedgerLine → Except ApplyFailure MailboxProjection :=
  applyInner true

def replay [DigestScheme] (workspaceId : WorkspaceId) (lines : List LedgerLine) :
    Except ApplyFailure MailboxProjection :=
  lines.foldlM MailboxProjection.applyReplayedOwned (.new workspaceId)

end Cyclops
