import Cyclops.Mailbox.PrepareNotification

/-!
# Validation of resolution and barrier rows

The rows that settle an attempt in attention and retire its composer barrier, and the entry points
of validation: `prepareLineInner p line replaying` validates one row, `checkAcceptance p draft` one
send before it is a row.
-/

namespace Cyclops

open Checked FiniteMap

def alreadyRecorded {α : Type} [DecidableEq α] (recorded : Option α) (value : α)
    (ambiguous : MailboxError) : Except MailboxError Bool :=
  match recorded with
  | none => .ok false
  | some old => if old = value then .ok true else .error ambiguous

def stagedClearedRecord (line : LedgerLine) (current : NotificationRecord) : NotificationRecord :=
  { current with
    state := .withdrawnAfterStaging
    cause := none
    preWriteCause := none
    preWriteObservation := none
    updatedSeq := line.seq
    updatedAt := line.ts }

/-- The record of a timed-out acknowledgement that a claim made good. -/
def reconciledRecord (line : LedgerLine) (current : NotificationRecord) : NotificationRecord :=
  { current with
    state := .notified
    cause := none
    preWriteCause := none
    preWriteObservation := none
    updatedSeq := line.seq
    updatedAt := line.ts }

structure CanonicalDraft where
  kind : Kind
  sender : RecipientKey
  recipients : List RecipientKey
  presentation : MessagePresentation
  subject : Option String
  summary : Option String
  body : Option String
  replyTo : Option MessageId
  clientKey : Option String
  supersedes : Option MessageId
  raw : Bool
  broadcast : Bool

/-- Whether a request is new or a retry. -/
inductive AcceptanceOutcome where
  | new (requestDigest : RequestDigest)
  | existing (messageId : MessageId)

def CanonicalDraft.digest [DigestScheme] (draft : CanonicalDraft) : RequestDigest :=
  RequestDigest.compute draft.kind draft.sender draft.recipients
    ⟨draft.subject, draft.summary, draft.body⟩ draft.replyTo draft.supersedes

def checkSummary (summary : Option String) : Except MailboxError Unit :=
  match summary with
  | some summary => liftType (validateMessageSummary summary)
  | none => .ok ()

namespace MailboxProjection

variable (p : MailboxProjection)

/-! ## Resolutions -/

/-- The current attempt of a key: in attention, bound to its pane, not resolved. -/
def unresolvedAttention (attempt : AttemptRef) : Except MailboxError NotificationRecord := do
  let current ← p.currentAttempt attempt (.notificationAttemptUnknown attempt.attemptId)
  refuseIf (current.state ≠ .attentionRequired ∨ current.binding = none)
    .notificationClearRequiresAttention
  refuseIf (attempt.attemptId ∈ p.resolvedAttempts) (.notificationAlreadyResolved attempt.attemptId)
  return current

def checkResolutionProof (proofVersion : Nat) (current : NotificationRecord)
    (attemptId : NotificationAttemptId) (resolution : NotificationResolution) :
    Except MailboxError Unit :=
  if proofVersion = 0 then
    -- A final fact that predates separate action and consumption boundaries.
    refuseIf (usesLegacyNotificationWriteContract current = false ∨
        attemptId ∈ p.resolutionActionsAccepted ∨ attemptId ∈ p.resolutionConsumptions ∨
        ∃ recorded ∈ p.resolutionIntents.lookup attemptId, recorded ≠ resolution)
      (.notificationResolutionAmbiguous attemptId)
  else if proofVersion = notificationResolutionProofVersion then do
    refuseIf (p.resolutionIntents.lookup attemptId ≠ some resolution)
      (.notificationResolutionAmbiguous attemptId)
    match resolution, p.resolutionActionsAccepted.lookup attemptId,
        p.resolutionConsumptions.lookup attemptId with
    | .complete, some .complete, some observation =>
      refuseIf (observation.evidence.provesExactConsumption = false)
        (.notificationResolutionAmbiguous attemptId)
    | .discard, some .discard, none => .ok ()
    | _, _, _ => .error (.notificationResolutionAmbiguous attemptId)
  else
    .error (.invalidNotificationFact
      ("unsupported notification resolution proof version " ++ toString proofVersion))

def prepareNotificationResolution (line : LedgerLine) (proofVersion : Nat) (attempt : AttemptRef)
    (resolution : NotificationResolution) : Except MailboxError PreparedMutation := do
  p.validateNotificationEnvelope line attempt.recordVersion attempt.messageId attempt.recipient
  let current ← p.unresolvedAttention attempt
  p.checkResolutionProof proofVersion current attempt.attemptId resolution
  return .notificationResolved attempt.attemptId resolution

def prepareNotificationResolutionWithoutTerminalAction (line : LedgerLine) (attempt : AttemptRef)
    (resolution : NotificationResolution) : Except MailboxError PreparedMutation := do
  p.validateNotificationEnvelope line attempt.recordVersion attempt.messageId attempt.recipient
  let _ ← p.unresolvedAttention attempt
  refuseIf (resolution ≠ .discard ∨ attempt.attemptId ∈ p.resolutionActionsAccepted ∨
      attempt.attemptId ∈ p.resolutionConsumptions ∨
      ∃ recorded ∈ p.resolutionIntents.lookup attempt.attemptId, recorded ≠ .discard)
    (.notificationResolutionAmbiguous attempt.attemptId)
  return .notificationResolvedWithoutTerminalAction attempt.attemptId resolution

def prepareNotificationResolutionIntent (line : LedgerLine) (attempt : AttemptRef)
    (resolution : NotificationResolution) (forced : Bool) :
    Except MailboxError PreparedMutation := do
  p.validateNotificationEnvelope line attempt.recordVersion attempt.messageId attempt.recipient
  let _ ← p.unresolvedAttention attempt
  refuseIf (attempt.attemptId ∈ p.resolutionIntents)
    (.notificationResolutionAmbiguous attempt.attemptId)
  refuseIf (forced = true ∧ resolution ≠ .complete)
    (.notificationResolutionAmbiguous attempt.attemptId)
  return .notificationResolutionIntent attempt.attemptId resolution forced

/-- A forced completion may reserve its terminal action once. -/
def validateForcedNotificationResolutionActionReservation (attempt : AttemptRef)
    (resolution : NotificationResolution) : Except MailboxError Bool := do
  let attemptId := attempt.attemptId
  let current ← p.currentAttempt attempt (.notificationAttemptUnknown attemptId)
  refuseIf (current.needsExactOwnedReconciliation = false ∨
      p.notification attempt.recipient attempt.messageId ≠ some current ∨
      p.activeNotificationBarriers.lookup attemptId ≠ some current)
    .notificationClearRequiresAttention
  refuseIf (p.entryIsPending attempt.recipient attempt.messageId = false)
    (.notificationMessageNotPending attempt.messageId attempt.recipient)
  refuseIf (resolution ≠ .complete ∨ attemptId ∈ p.resolvedAttempts ∨
      attemptId ∈ p.resolutionActionsAccepted ∨ attemptId ∈ p.resolutionConsumptions ∨
      p.resolutionIntents.lookup attemptId ≠ some resolution ∨
      attemptId ∉ p.forcedResolutionIntents)
    (.notificationResolutionAmbiguous attemptId)
  alreadyRecorded (p.resolutionActionReservations.lookup attemptId) resolution
    (.notificationResolutionAmbiguous attemptId)

def prepareNotificationResolutionActionReserved (line : LedgerLine) (attempt : AttemptRef)
    (resolution : NotificationResolution) : Except MailboxError PreparedMutation := do
  p.validateNotificationEnvelope line attempt.recordVersion attempt.messageId attempt.recipient
  let _ ← p.validateForcedNotificationResolutionActionReservation attempt resolution
  return .notificationResolutionActionReserved attempt.attemptId resolution

/-- An action is accepted under the intent recorded for it. -/
def validateNotificationResolutionActionAccepted (attempt : AttemptRef)
    (resolution : NotificationResolution) : Except MailboxError Bool := do
  let _ ← p.unresolvedAttention attempt
  refuseIf (p.resolutionIntents.lookup attempt.attemptId ≠ some resolution)
    (.notificationResolutionAmbiguous attempt.attemptId)
  alreadyRecorded (p.resolutionActionsAccepted.lookup attempt.attemptId) resolution
    (.notificationResolutionAmbiguous attempt.attemptId)

def prepareNotificationResolutionActionAccepted (line : LedgerLine) (attempt : AttemptRef)
    (resolution : NotificationResolution) : Except MailboxError PreparedMutation := do
  p.validateNotificationEnvelope line attempt.recordVersion attempt.messageId attempt.recipient
  let _ ← p.validateNotificationResolutionActionAccepted attempt resolution
  return .notificationResolutionActionAccepted attempt.attemptId resolution

/-- Consumption is observed only for an accepted Complete action. -/
def validateNotificationResolutionConsumptionObserved (attempt : AttemptRef)
    (observation : NotificationResolutionConsumptionObservation) :
    Except MailboxError Bool := do
  refuseIf (observation.observedAtMs = 0)
    (.invalidNotificationFact "resolution consumption observation requires a positive timestamp")
  let _ ← p.unresolvedAttention attempt
  refuseIf (p.resolutionIntents.lookup attempt.attemptId ≠ some .complete ∨
      p.resolutionActionsAccepted.lookup attempt.attemptId ≠ some .complete)
    (.notificationResolutionAmbiguous attempt.attemptId)
  alreadyRecorded (p.resolutionConsumptions.lookup attempt.attemptId) observation
    (.notificationResolutionAmbiguous attempt.attemptId)

def prepareNotificationResolutionConsumptionObserved (line : LedgerLine) (attempt : AttemptRef)
    (observation : NotificationResolutionConsumptionObservation) :
    Except MailboxError PreparedMutation := do
  p.validateNotificationEnvelope line attempt.recordVersion attempt.messageId attempt.recipient
  let _ ← p.validateNotificationResolutionConsumptionObserved attempt observation
  return .notificationResolutionConsumptionObserved attempt.attemptId observation

def prepareNotificationResolutionIntentWithdrawn (line : LedgerLine) (attempt : AttemptRef)
    (resolution : NotificationResolution) : Except MailboxError PreparedMutation := do
  p.validateNotificationEnvelope line attempt.recordVersion attempt.messageId attempt.recipient
  let _ ← p.currentAttempt attempt (.notificationAttemptUnknown attempt.attemptId)
  refuseIf (p.resolutionIntents.lookup attempt.attemptId ≠ some resolution ∨
      attempt.attemptId ∈ p.resolvedAttempts ∨
      attempt.attemptId ∈ p.resolutionActionReservations ∨
      attempt.attemptId ∈ p.resolutionActionsAccepted ∨
      attempt.attemptId ∈ p.resolutionConsumptions)
    (.notificationResolutionAmbiguous attempt.attemptId)
  return .notificationResolutionIntentWithdrawn attempt.attemptId

/-! ## Composer barriers -/

/-- The active barrier of an attempt, which must be that of the named entry. -/
def activeBarrier (attempt : AttemptRef) : Except MailboxError NotificationRecord := do
  let active ← orRefuse (p.activeNotificationBarriers.lookup attempt.attemptId)
    (.notificationBarrierNotActive attempt.attemptId)
  refuseIf (active.messageId ≠ attempt.messageId ∨ active.recipient ≠ attempt.recipient)
    (.notificationAttemptMismatch active.attemptId attempt.attemptId)
  return active

def claimedByRecipient (recipient : RecipientKey) (messageId : MessageId) : Bool :=
  match p.getEntry recipient messageId with
  | some ⟨_, _, .claimed claimant _, _, _⟩ => claimant = recipient
  | _ => false

def prepareNotificationClaimedStagedClear (line : LedgerLine) (attempt : AttemptRef) :
    Except MailboxError PreparedMutation := do
  p.validateNotificationEnvelope line attempt.recordVersion attempt.messageId attempt.recipient
  let current ← p.currentAttempt attempt (.notificationNotFound attempt.messageId attempt.recipient)
  refuseIf (current.state ≠ .staged ∨ current.transport ≠ .doorbell)
    (.invalidNotificationTransition current.state .withdrawnAfterStaging)
  refuseIf (p.claimedByRecipient attempt.recipient attempt.messageId = false)
    (.invalidNotificationFact "claimed staged clear requires the exact recipient claim")
  let active ← p.activeBarrier attempt
  refuseIf (active.state ≠ .staged ∨ active.binding ≠ current.binding ∨
      active.transport ≠ current.transport ∨ active.doorbellFormat ≠ current.doorbellFormat)
    (.invalidNotificationFact "claimed staged clear does not match the exact active barrier")
  return .notificationClaimedStagedCleared (attempt.recipient, attempt.messageId)
    (stagedClearedRecord line current) attempt.attemptId

def prepareNotificationClaimedAckTimeoutReconciliation (line : LedgerLine)
    (attempt : AttemptRef) : Except MailboxError PreparedMutation := do
  p.validateNotificationEnvelope line attempt.recordVersion attempt.messageId attempt.recipient
  let current ← p.currentAttempt attempt (.notificationNotFound attempt.messageId attempt.recipient)
  refuseIf (current.needsClaimedAckTimeoutReconciliation = false)
    (.invalidNotificationTransition current.state .notified)
  refuseIf (p.exactRecipientClaimedAfterWrite current = false) (.invalidNotificationFact
      "ACK-timeout reconciliation requires an exact recipient claim after write")
  let active ← orRefuse (p.activeNotificationBarriers.lookup attempt.attemptId)
    (.notificationBarrierNotActive attempt.attemptId)
  refuseIf (active ≠ current) (.invalidNotificationFact
      "ACK-timeout reconciliation does not match the exact active barrier")
  return .notificationClaimedAckTimeoutReconciled (attempt.recipient, attempt.messageId)
    (reconciledRecord line current) attempt.attemptId

def checkRetirementCause (recipient : RecipientKey) (active : NotificationRecord)
    (cause : NotificationBarrierRetirementCause) (replacement : Option NotificationBinding) :
    Except MailboxError Unit :=
  match cause with
  | .occupantReplaced => do
    let replacement ← orRefuse (replacement.filter fun binding => binding.leader.isSome)
      .notificationBarrierReplacementRequired
    refuseIf (replacement.recipient ≠ recipient) .notificationBindingMismatch
    refuseIf (∃ binding ∈ active.binding,
        binding.agent = replacement.agent ∧ binding.manifest = replacement.manifest)
      .notificationBarrierReplacementUnchanged
  | .composerObservedClear => do
    refuseIf (replacement.isSome = true) .notificationBarrierReplacementForbidden
    refuseIf (¬ (active.state = .notified ∨ active.state = .withdrawnAfterStaging))
      (.notificationBarrierRetirementState cause active.state)
  | .recipientClaimedComposerClear => do
    refuseIf (replacement.isSome = true) .notificationBarrierReplacementForbidden
    refuseIf (¬ (active.state = .attentionRequired ∨ active.state = .notified) ∨
        usesIncompleteLegacyDoorbellContract active = false ∨
        p.exactRecipientClaimedAfterWrite active = false)
      (.notificationBarrierRetirementState cause active.state)
  | .lifecycleReconciled => do
    refuseIf (replacement.isSome = true) .notificationBarrierReplacementForbidden
    refuseIf (active.needsClaimedAckTimeoutReconciliation = true ∧
        p.exactRecipientClaimedAfterWrite active = true)
      (.notificationBarrierRetirementState cause active.state)
  | .paneGone => refuseIf (replacement.isSome = true) .notificationBarrierReplacementForbidden

def prepareNotificationBarrierRetirement (line : LedgerLine) (attempt : AttemptRef)
    (cause : NotificationBarrierRetirementCause) (replacement : Option NotificationBinding) :
    Except MailboxError PreparedMutation := do
  p.validateNotificationEnvelope line attempt.recordVersion attempt.messageId attempt.recipient
  let active ← p.activeBarrier attempt
  p.checkRetirementCause attempt.recipient active cause replacement
  return .notificationBarrierRetired attempt.attemptId

/-! ## Rows -/

def prepareNotificationFact (line : LedgerLine) (replaying : Bool) :
    NotificationFact → Except MailboxError PreparedMutation
  | .notificationTransition fact => p.prepareNotificationTransition line fact replaying
  | .notificationUnclaimedReminderQueued attempt => p.prepareUnclaimedReminderQueued line attempt
  | .notificationRequeued prior attempt => p.prepareNotificationRequeue line prior attempt
  | .notificationsRequeued version messageId requeues =>
    p.prepareNotificationRequeues line version messageId requeues
  | .notificationCleared attempt => p.prepareNotificationClear line attempt
  | .notificationsCleared version batchId attemptIds operator cutoffMs =>
    p.prepareNotificationClears line version batchId attemptIds operator cutoffMs
  | .notificationWithdrawnBeforeWrite attempt operator =>
    p.prepareNotificationWithdrawal line attempt operator replaying
  | .notificationResolutionIntent attempt resolution forced =>
    p.prepareNotificationResolutionIntent line attempt resolution forced
  | .notificationResolutionActionReserved attempt resolution =>
    p.prepareNotificationResolutionActionReserved line attempt resolution
  | .notificationResolutionActionAccepted attempt resolution =>
    p.prepareNotificationResolutionActionAccepted line attempt resolution
  | .notificationResolutionConsumptionObserved attempt observation =>
    p.prepareNotificationResolutionConsumptionObserved line attempt observation
  | .notificationResolutionIntentWithdrawn attempt resolution =>
    p.prepareNotificationResolutionIntentWithdrawn line attempt resolution
  | .notificationResolvedWithoutTerminalAction attempt resolution =>
    p.prepareNotificationResolutionWithoutTerminalAction line attempt resolution
  | .notificationResolved proofVersion attempt resolution =>
    p.prepareNotificationResolution line proofVersion attempt resolution
  | .notificationClaimedStagedCleared attempt =>
    p.prepareNotificationClaimedStagedClear line attempt
  | .notificationClaimedAckTimeoutReconciled attempt =>
    p.prepareNotificationClaimedAckTimeoutReconciliation line attempt
  | .notificationBarrierRetired attempt cause replacement =>
    p.prepareNotificationBarrierRetirement line attempt cause replacement

def prepareState (line : LedgerLine) (replaying : Bool) : Except MailboxError PreparedMutation :=
  match line.data with
  | some (.mailbox (.messageClaimed version messageId recipient claimant)) =>
    p.prepareClaim line version messageId recipient claimant
  | some (.mailbox (.messageDeliveredDirect attempt)) => p.prepareDeliveredDirect line attempt
  | some (.notification fact) => p.prepareNotificationFact line replaying fact
  | some (.malformed (some .messageClaimed) error) =>
    .error (.invalidFact ("malformed message_claimed: " ++ error))
  | some (.malformed (some .messageDeliveredDirect) error) =>
    .error (.invalidFact ("malformed message_delivered_direct: " ++ error))
  | some (.malformed (some .notification) error) => .error (.invalidNotificationFact error)
  | _ => .error (.uncanonicalRow ("unknown or uncanonical state row seq " ++ toString line.seq))

def prepareLineInner [DigestScheme] (line : LedgerLine) (replaying : Bool) :
    Except MailboxError PreparedMutation := do
  refuseIf (u64Bound ≤ p.head + 1) (.nonContiguousSequence p.head line.seq)
  refuseIf (line.seq ≠ p.head + 1) (.nonContiguousSequence (p.head + 1) line.seq)
  match line.kind with
  | .msg | .fyi => p.prepareMessage line
  | .state => p.prepareState line replaying
  | .system => .error (.uncanonicalRow
      ("unsupported workspace row kind System seq " ++ toString line.seq))
  | .gate => .error (.uncanonicalRow
      ("unsupported workspace row kind Gate seq " ++ toString line.seq))

def prepareLine [DigestScheme] (line : LedgerLine) : Except MailboxError PreparedMutation :=
  p.prepareLineInner line false

/-! ## Acceptance of a send -/

/-- Decide whether a draft is a new submission or an identical retry. -/
def checkAcceptance [DigestScheme] (draft : CanonicalDraft) :
    Except MailboxError AcceptanceOutcome := do
  refuseIf (draft.kind ≠ .msg ∧ draft.kind ≠ .fyi) (.invalidKind draft.kind)
  p.checkWorkspace draft.sender.workspaceId
  refuseIf (draft.recipients = []) .draftEmptyRecipients
  checkRecipients p.workspaceId .draftDuplicateRecipient [] draft.recipients
  refuseIf (draft.clientKey = some "") .emptyClientKey
  let _ ← presentationLabels draft.recipients draft.presentation
  checkSummary draft.summary
  match draft.clientKey.bind fun key => p.idempotencyIndex.lookup (draft.sender, key) with
  | some (existingId, existingDigest) => do
    refuseIf (existingDigest ≠ draft.digest)
      (.duplicateIdempotencyKey draft.sender (draft.clientKey.getD "") existingId)
    return .existing existingId
  | none => do
    let _ ← p.supersessionThreadRoot draft.sender draft.recipients draft.supersedes
    return .new draft.digest

end MailboxProjection

end Cyclops
