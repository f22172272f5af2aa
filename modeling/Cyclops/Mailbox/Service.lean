import Cyclops.Mailbox.StoreFacts

/-!
# The mailbox service

Socket requests against the directory and the store.
-/

namespace Cyclops

open Checked FiniteMap

def liftDirectory {α : Type} : Except MailboxDirectoryError α → Except Failure α
  | .ok a => .ok a
  | .error e => .error (.directory e)

@[simp] theorem liftDirectory_eq_ok {α : Type} {x : Except MailboxDirectoryError α} {a : α} :
    liftDirectory x = .ok a ↔ x = .ok a := by
  cases x <;> simp [liftDirectory]

/-! ## Sends and replies -/

/-- The recipients a send names: by key, or by address, never both. -/
def MailboxDirectory.resolveSend (directory : MailboxDirectory) (request : MailboxSend) :
    Except MailboxDirectoryError (List MailboxIdentity) :=
  match request.recipientKeys with
  | some keys => do
    refuseIf (request.addresses ≠ []) .mixedRecipientSelectors
    directory.resolveRecipientKeys keys
  | none => directory.resolve request.addresses

def nonEmptyBody (body : String) : Option String :=
  if body = "" then none else some body

def MailboxSend.draft (request : MailboxSend) (sender : MailboxIdentity)
    (recipients : List MailboxIdentity) : MessageDraft where
  kind := if request.fyi then .fyi else .msg
  sender := sender.key
  recipients := recipients.map MailboxIdentity.key
  presentation :=
    ⟨sender.label, recipients.map fun identity => ⟨identity.key, identity.label⟩⟩
  subject := some request.subject
  summary := request.summary
  body := nonEmptyBody request.body
  clientKey := request.clientKey
  supersedes := request.supersedes
  raw := request.raw
  broadcast := request.recipientKeys.isNone && request.addresses == ["*"]

namespace MailboxService

variable (directory : MailboxDirectory) (store : MessageStore)

def send [DigestScheme] (sender : MailboxIdentity) (request : MailboxSend) (draws : List Uuid)
    (now : Nat) : Except Failure (Plan AcceptResult) := do
  let recipients ← liftDirectory (directory.resolveSend request)
  let draft := request.draft sender recipients
  let threadRoot ← liftMailbox
    (store.projection.supersessionThreadRoot draft.sender draft.recipients draft.supersedes)
  let messageId ← orRefuse (store.mintMessageId threadRoot draws) .mintUnfinished
  store.acceptAt messageId draft now now

structure MailboxReply where
  reference : MessageId
  summary : Option String
  body : String
  clientKey : Option String
  raw : Bool

/-- The message a reply refers to; an attempt locator names the message of the
attempt. -/
def resolveReference (reference : MessageId) : Except MailboxError MessageId :=
  match parseNotificationAttemptClaimLocator reference with
  | some attemptId => do
    let record ← orRefuse (store.projection.notificationByAttempt attemptId)
      (.notificationAttemptUnknown attemptId)
    return record.messageId
  | none => .ok reference

/-- Reply to one message. The reply's id carries the parent's thread. -/
def replyWithSummary [DigestScheme] (sender : MailboxIdentity) (request : MailboxReply)
    (draws : List Uuid) (now : Nat) : Except Failure (Plan AcceptResult) := do
  let reference ← liftMailbox (resolveReference store request.reference)
  let derived ← liftMailbox (store.projection.deriveReply sender.key reference)
  let destination ← liftDirectory (orRefuse (directory.identityForRecipient derived.recipient)
    (.unknownRecipient derived.recipient.text))
  let messageId ← orRefuse (store.mintMessageId (some derived.threadRoot) draws) .mintUnfinished
  store.replyAt messageId
    { sender := sender.key
      reference
      summary := request.summary
      body := nonEmptyBody request.body
      clientKey := request.clientKey
      senderLabel := sender.label
      recipientLabel := destination.label
      raw := request.raw } now now

/-! ## Scheduling wakes -/

def firstActionablePendingMessageId (recipient : RecipientKey) : Option MessageId :=
  ((store.projection.getPending recipient).find? fun entry =>
    !store.projection.notificationWithdrawnByOperator recipient entry.messageId).map
    MailboxEntry.messageId

def unsettledWake (state : NotificationState) : Bool :=
  state matches .queued | .gating | .writing | .staged | .submitting | .submitted |
    .submittedUnverified

def actionable (recipient : RecipientKey) (entry : MailboxEntry) : Bool :=
  match entry.state with
  | .pending => !store.projection.notificationWithdrawnByOperator recipient entry.messageId
  | .claimed _ _ =>
    match store.projection.notification recipient entry.messageId with
    | some record => unsettledWake record.state
    | none => false
  | _ => false

/-- Oldest mailbox entry whose pane doorbell has not reached a terminal result. -/
def firstActionableNotificationMessageId (recipient : RecipientKey) : Option MessageId :=
  ((store.projection.getMailbox recipient).find? (actionable store recipient)).map
    MailboxEntry.messageId

def resumable (record : NotificationRecord) : Option NotificationRecord :=
  if record.state = .queued ∨ record.state = .gating then some record else none

def prepareOldestNotification (recipient : RecipientKey) (attemptId : NotificationAttemptId)
    (now : Nat) : Plan (Option NotificationRecord) :=
  if recipient.isAdmin then .answer none
  else
    match store.projection.claimedOperatorNotification recipient with
    | some record => .answer (resumable record)
    | none =>
      match firstActionableNotificationMessageId store recipient with
      | none => .answer none
      | some messageId =>
        match store.projection.notification recipient messageId with
        | none => (store.queueNotification messageId recipient attemptId now).map some
        | some record => .answer (resumable record)

def completeBinding (recipient : RecipientKey) (observation : NotificationPreWriteObservation) :
    Bool :=
  match observation.binding with
  | some binding =>
    observation.paneRoot.isSome && binding.paneRoot.isSome && binding.leader.isSome &&
      observation.paneRoot == binding.paneRoot && binding.recipient == recipient &&
      observation.selectedManifest == some binding.manifest
  | none => false

def bindingEvidenceChanged (prior : Option NotificationPreWriteObservation)
    (observation : NotificationPreWriteObservation) : Bool :=
  match prior with
  | none => true
  | some prior =>
    match prior.routeEvidence, observation.routeEvidence with
    | some old, some new => routeEvidenceIsLater old new
    | none, some _ => true
    | some _, none => false
    | none, none =>
      prior.paneRoot != observation.paneRoot ||
        prior.selectedManifest != observation.selectedManifest ||
        prior.binding != observation.binding

def readinessEvidenceChanged (prior : Option NotificationPreWriteObservation)
    (observation : NotificationPreWriteObservation) : Bool :=
  match prior.bind NotificationPreWriteObservation.routeEvidence, observation.routeEvidence with
  | some old, some new => routeEvidenceIsLater old new
  | _, _ => false

def causeChanged (current : NotificationRecord) (recipient : RecipientKey)
    (observation : NotificationPreWriteObservation) (writeReady : Bool) : Bool :=
  match current.preWriteCause with
  | some .sessionUnavailable | some .workerFailed => completeBinding recipient observation
  | some .bindingUnprovable => bindingEvidenceChanged current.preWriteObservation observation
  | some .writeReadinessChanged =>
    writeReady && readinessEvidenceChanged current.preWriteObservation observation
  | _ => false

def reopenOldestNotificationAfterRouteEvidence (recipient : RecipientKey)
    (observation : NotificationPreWriteObservation) (writeReady : Bool) (now : Nat) :
    Plan (Option NotificationRecord) :=
  if recipient.isAdmin then .answer none
  else
    match firstActionablePendingMessageId store recipient with
    | none => .answer none
    | some messageId =>
      match store.projection.notification recipient messageId with
      | none => .answer none
      | some current =>
        if current.state ≠ .blockedPreWrite ∨ completeBinding recipient observation = false ∨
            causeChanged current recipient observation writeReady = false ∨
            1 ≤ current.preWriteReopenCount then
          .answer none
        else
          (store.advanceNotification messageId recipient current.attemptId .gating none none
            now).map some

/-! ## Operator requests -/

def requeueableForMessage (order : MessageStore.IterationOrder) (messageId : MessageId) :
    List NotificationRecord :=
  (order.apply ((values store.projection.notifications).filter fun record =>
    record.messageId = messageId ∧
      (record.state = .quotaResetObserved ∨
        (record.state = .attentionRequired ∧
          record.attemptId ∉ store.projection.clearedAttempts)) ∧
      record.attemptId ∉ store.projection.resolvedAttempts)).insertionSort fun a b =>
    a.startedSeq ≤ b.startedSeq

/-- Requeue every uncleared alarm on one message whose entry is still pending. -/
def requeueMessage (order : MessageStore.IterationOrder) (messageId : MessageId)
    (fresh : NotificationAttemptId → NotificationAttemptId) (now : Nat) :
    Except MailboxError (Plan (List NotificationRecord)) := do
  refuseIf (messageId ∉ store.projection.messages) (.messageNotFound messageId)
  let selected := (requeueableForMessage store order messageId).filter fun record =>
    store.projection.entryIsPending record.recipient messageId
  let requeues := selected.map fun record : NotificationRecord =>
    (⟨record.attemptId, fresh record.attemptId, record.recipient⟩ : NotificationRequeue)
  return store.requeueNotifications messageId requeues now

/-- One alarm of a clearance request: current, in attention, not too new. -/
def checkAlarm (cutoffMs : Option Nat) (attemptId : NotificationAttemptId) :
    Except MailboxError NotificationRecord := do
  let record ← orRefuse (store.projection.notificationByAttempt attemptId)
    (.notificationAttemptUnknown attemptId)
  refuseIf (record.state ≠ .attentionRequired) .notificationClearRequiresAttention
  match cutoffMs.filter fun cutoff => cutoff < record.updatedAt with
  | some cutoff =>
    .error (.notificationNewerThanClearCutoff attemptId record.updatedAt cutoff)
  | none => return record

def clearAlarms (operator : RecipientKey) (ids : List NotificationAttemptId)
    (cutoffMs : Option Nat) (now : Nat) (draw : Uuid) :
    Except MailboxError (Plan (List NotificationRecord)) := do
  refuseIf (operator ≠ .admin store.projection.workspaceId) .notificationClearOperatorInvalid
  let summaries ← ids.mapM (checkAlarm store cutoffMs)
  let fresh := sortedAttempts (ids.filter fun id => !store.projection.alarmCleared id)
  let plan ← store.clearNotificationsAt operator fresh cutoffMs now now draw
  return plan.map fun _ => summaries

/-- Withdraw one exact unwritten wake. The boolean is true when a row was
appended. -/
def withdrawNotificationBeforeWrite (operator recipient : RecipientKey)
    (attemptId : NotificationAttemptId) (now : Nat) :
    Except MailboxError (Plan (NotificationRecord × Bool)) := do
  let plan ← store.withdrawNotificationBeforeWrite operator recipient attemptId now
  let inserted (p : MailboxProjection) : Bool :=
    p.lastWorkspaceSeq != store.projection.lastWorkspaceSeq
  match plan with
  | .answer record => .ok (.answer (record, false))
  | .append line result =>
    .ok (.append line fun p => (result p).map fun record => (record, inserted p))

def claim (claimant : RecipientKey) (reference : MessageId) (now : Nat) :
    Except Failure (Plan ClaimOutcome) :=
  match parseNotificationAttemptClaimLocator reference with
  | some attemptId => do
    let plan ← store.claimNotificationLocator claimant reference attemptId now
    return plan.map Prod.fst
  | none => store.claimAt claimant reference now now

end MailboxService

end Cyclops
