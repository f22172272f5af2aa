import Cyclops.Proto.MessageId

/-!
# Notification attempts

The state machine of one attempt to wake one recipient for one message, the record the projection
keeps for it, and the facts the journal stores about it.
-/

namespace Cyclops

/-! ## Vocabularies -/

/-- What a row is. -/
inductive Kind where
  | msg | fyi | system | state | gate
deriving DecidableEq

/-- What proved a receipt. -/
inductive VerifiedBy where
  | hook | screen
deriving DecidableEq

/-- What the composer of a pane was seen to hold. -/
inductive ComposerState where
  | composerClean | humanDraft | vendorGhostSuggestion | cyclopsNotificationStaged
  | cyclopsNotificationSubmitted | composerAmbiguous
deriving DecidableEq

/-- Why a recipient cannot be woken now. -/
inductive MessageWakeBlock where
  | daemonStopping | routeUnavailable | attentionResolutionPending | workerFaulted
  | workerSupervisorExited | enqueueRefused | composerOwnershipUnproven
  | schedulerStateUnavailable
deriving DecidableEq

def MessageWakeBlock.wireName : MessageWakeBlock → String
  | daemonStopping => "daemon_stopping"
  | routeUnavailable => "route_unavailable"
  | attentionResolutionPending => "attention_resolution_pending"
  | workerFaulted => "worker_faulted"
  | workerSupervisorExited => "worker_supervisor_exited"
  | enqueueRefused => "enqueue_refused"
  | composerOwnershipUnproven => "composer_ownership_unproven"
  | schedulerStateUnavailable => "scheduler_state_unavailable"

/-- How an attempt reaches its pane. -/
inductive NotificationTransport where
  | doorbell | directPayload | raw | mailbox
deriving DecidableEq

/-- Why an attempt stopped before its write. -/
inductive NotificationPreWriteCause where
  | heldForExistingDraft | sessionUnavailable | manifestUnavailable | payloadUnavailable
  | writeReadinessChanged | spoolFailed | pasteCommandUnwritten | bindingUnprovable
  | composerSemanticMissing | composerOwnershipUnproven | workerFailed | claimedBeforeWrite
deriving DecidableEq

def NotificationPreWriteCause.wireName : NotificationPreWriteCause → String
  | heldForExistingDraft => "held_for_existing_draft"
  | sessionUnavailable => "session_unavailable"
  | manifestUnavailable => "manifest_unavailable"
  | payloadUnavailable => "payload_unavailable"
  | writeReadinessChanged => "write_readiness_changed"
  | spoolFailed => "spool_failed"
  | pasteCommandUnwritten => "paste_command_unwritten"
  | bindingUnprovable => "binding_unprovable"
  | composerSemanticMissing => "composer_semantic_missing"
  | composerOwnershipUnproven => "composer_ownership_unproven"
  | workerFailed => "worker_failed"
  | claimedBeforeWrite => "claimed_before_write"

/-- What an operator decided about an attempt in attention. -/
inductive NotificationResolution where
  | complete | discard
deriving DecidableEq

/-- What shows that the staged text was taken. -/
inductive NotificationResolutionConsumptionEvidence where
  | exactHookPrompt | authenticatedClaim | workingEdge
deriving DecidableEq

def NotificationResolutionConsumptionEvidence.provesExactConsumption :
    NotificationResolutionConsumptionEvidence → Bool
  | exactHookPrompt => true
  | authenticatedClaim => true
  | workingEdge => false

structure NotificationResolutionConsumptionObservation where
  evidence : NotificationResolutionConsumptionEvidence
  observedAtMs : Nat
deriving DecidableEq

/-- Why a barrier was given up. -/
inductive NotificationBarrierRetirementCause where
  | lifecycleReconciled | composerObservedClear | recipientClaimedComposerClear
  | occupantReplaced | paneGone
deriving DecidableEq

/-- How the check of the staged text failed. -/
inductive NotificationVerifyFailureKind where
  | mismatch | timeout | ownerMissing | ambiguous
deriving DecidableEq

/-- Content-free observation attached to a `verify_failed` transition. -/
structure NotificationVerifyOutcome where
  kind : NotificationVerifyFailureKind
  observedComposer : ComposerState
deriving DecidableEq

/-- Conservative fallback for callers that know only that verification failed. -/
def NotificationVerifyOutcome.ambiguous : NotificationVerifyOutcome :=
  ⟨.ambiguous, .composerAmbiguous⟩

/-! ## The attempt state machine -/

/-- The states of an attempt. -/
inductive NotificationState where
  | queued
  | gating
  | blockedPreWrite
  | quotaHeld
  | quotaResetObserved
  | writing
  | staged
  | submitting
  | submitted
  | submittedUnverified
  | notified
  | attentionRequired
  | withdrawn
  | withdrawnAfterStaging
  | withdrawnByOperator
  | superseded
deriving DecidableEq

namespace NotificationState

/-- Legal transitions for one attempt. Requeue is a separate fact. -/
def canTransitionTo : NotificationState → NotificationState → Bool
  | queued, next => (next matches gating | withdrawnByOperator | notified)
  | gating, next => (next matches blockedPreWrite | writing | quotaHeld | withdrawnByOperator)
  | blockedPreWrite, next => (next matches gating | withdrawn | withdrawnByOperator)
  | quotaHeld, next => (next matches quotaResetObserved)
  | writing, next =>
    (next matches staged | submitted | submittedUnverified | notified | attentionRequired)
  | staged, next => (next matches submitting | attentionRequired)
  | submitting, next => (next matches submitted | submittedUnverified | attentionRequired)
  | submitted, next => (next matches notified | attentionRequired)
  | submittedUnverified, next => (next matches notified | attentionRequired)
  | _, _ => false

def canWithdrawBeforeWrite (state : NotificationState) : Bool :=
  state matches queued | gating | blockedPreWrite

def settledByClaim (state : NotificationState) (transport : NotificationTransport) :
    NotificationState :=
  match state, transport with
  | queued, .directPayload => withdrawn
  | gating, .directPayload => withdrawn
  | blockedPreWrite, .directPayload => withdrawn
  | quotaHeld, .directPayload => withdrawn
  | quotaResetObserved, .directPayload => withdrawn
  | queued, .doorbell => withdrawn
  | gating, .doorbell => withdrawn
  | blockedPreWrite, .doorbell => withdrawn
  | submitted, .doorbell => notified
  | submittedUnverified, .doorbell => notified
  | state, _ => state

def isTerminal (state : NotificationState) : Bool :=
  state matches quotaHeld | quotaResetObserved | notified | attentionRequired | withdrawn |
    withdrawnAfterStaging | withdrawnByOperator | superseded

end NotificationState

/-- Why an attempt needs a human. -/
inductive NotificationAttentionCause where
  | pasteFailed | verifyFailed | paneReboundAfterPaste | submitFailed | receiptOccupantChanged
  | ackTimeout | daemonRestart | transportOutcomeUnknown
deriving DecidableEq

namespace NotificationAttentionCause

def wireName : NotificationAttentionCause → String
  | pasteFailed => "paste_failed"
  | verifyFailed => "verify_failed"
  | paneReboundAfterPaste => "pane_rebound_after_paste"
  | submitFailed => "submit_failed"
  | receiptOccupantChanged => "receipt_occupant_changed"
  | ackTimeout => "ack_timeout"
  | daemonRestart => "daemon_restart"
  | transportOutcomeUnknown => "transport_outcome_unknown"

def validAfter (cause : NotificationAttentionCause) (state : NotificationState) : Bool :=
  match state with
  | .writing =>
    (cause matches pasteFailed | verifyFailed | paneReboundAfterPaste | submitFailed |
      daemonRestart | transportOutcomeUnknown)
  | .staged | .submitting =>
    (cause matches verifyFailed | paneReboundAfterPaste | submitFailed | daemonRestart |
      transportOutcomeUnknown)
  | .submitted | .submittedUnverified =>
    (cause matches receiptOccupantChanged | ackTimeout | daemonRestart | transportOutcomeUnknown)
  | _ => false

end NotificationAttentionCause

/-! ## Records -/

structure NotificationBinding where
  recipient : RecipientKey
  paneRoot : Option ProcessInstanceId
  leader : Option ProcessInstanceId
  agent : ProcessInstanceId
  manifest : NotificationManifestId
deriving DecidableEq

structure NotificationRouteEvidenceId where
  bootId : String
  generation : Nat
deriving DecidableEq

structure NotificationPreWriteObservation where
  writeBlock : Option String
  paneRoot : Option ProcessInstanceId
  selectedManifest : Option NotificationManifestId
  binding : Option NotificationBinding
  routeEvidence : Option NotificationRouteEvidenceId
  paneWidth : Option Nat
  requiredPaneWidth : Option Nat
deriving DecidableEq

structure NotificationRecord where
  attemptId : NotificationAttemptId
  messageId : MessageId
  recipient : RecipientKey
  state : NotificationState
  binding : Option NotificationBinding
  transport : NotificationTransport
  doorbellFormat : Option Nat
  cause : Option NotificationAttentionCause
  verifiedBy : Option VerifiedBy
  verifyOutcome : Option NotificationVerifyOutcome
  preWriteCause : Option NotificationPreWriteCause
  wakeBlock : Option MessageWakeBlock
  preWriteObservation : Option NotificationPreWriteObservation
  preWriteReopenCount : Nat
  unclaimedReminderCount : Nat
  startedSeq : Nat
  updatedSeq : Nat
  updatedAt : Nat
deriving DecidableEq

def saturatingAddU8 (a b : Nat) : Nat := min (a + b) 255

def saturatingMulU8 (a b : Nat) : Nat := min (a * b) 255

def doorbellFormatNamesExactAttempt (format : Option Nat) : Bool :=
  format matches some 2 | some 3 | some 4

namespace NotificationRecord

def executionEpoch (record : NotificationRecord) : Nat :=
  saturatingAddU8 (saturatingMulU8 record.preWriteReopenCount 2) record.unclaimedReminderCount

def hasCompleteBinding (record : NotificationRecord) : Bool :=
  match record.binding with
  | some binding =>
    binding.recipient == record.recipient && binding.paneRoot.isSome && binding.leader.isSome
  | none => false

def needsExactOwnedReconciliation (record : NotificationRecord) : Bool :=
  record.state == .attentionRequired && record.cause == some .verifyFailed &&
    record.transport == .doorbell && doorbellFormatNamesExactAttempt record.doorbellFormat &&
    record.hasCompleteBinding

def needsClaimedAckTimeoutReconciliation (record : NotificationRecord) : Bool :=
  record.state == .attentionRequired && record.cause == some .ackTimeout &&
    record.transport == .doorbell && doorbellFormatNamesExactAttempt record.doorbellFormat &&
    record.hasCompleteBinding

end NotificationRecord

/-! ## Facts -/

structure NotificationRequeue where
  priorAttemptId : NotificationAttemptId
  attemptId : NotificationAttemptId
  recipient : RecipientKey
deriving DecidableEq

structure NotificationTransition where
  recordVersion : Nat
  attemptId : NotificationAttemptId
  messageId : MessageId
  recipient : RecipientKey
  state : NotificationState
  binding : Option NotificationBinding
  transport : Option NotificationTransport
  doorbellFormat : Option Nat
  cause : Option NotificationAttentionCause
  verifiedBy : Option VerifiedBy
  verifyOutcome : Option NotificationVerifyOutcome
  preWriteCause : Option NotificationPreWriteCause
  wakeBlock : Option MessageWakeBlock
  preWriteObservation : Option NotificationPreWriteObservation
deriving DecidableEq

structure AttemptRef where
  recordVersion : Nat
  attemptId : NotificationAttemptId
  messageId : MessageId
  recipient : RecipientKey
deriving DecidableEq

/-- The facts about attempts. -/
inductive NotificationFact where
  | notificationTransition (fact : NotificationTransition)
  | notificationUnclaimedReminderQueued (attempt : AttemptRef)
  | notificationRequeued (priorAttemptId : NotificationAttemptId) (attempt : AttemptRef)
  | notificationsRequeued (recordVersion : Nat) (messageId : MessageId)
      (requeues : List NotificationRequeue)
  | notificationCleared (attempt : AttemptRef)
  | notificationsCleared (recordVersion : Nat) (batchId : String)
      (attemptIds : List NotificationAttemptId) (operator : RecipientKey) (cutoffMs : Option Nat)
  | notificationWithdrawnBeforeWrite (attempt : AttemptRef) (operator : RecipientKey)
  | notificationResolutionIntent (attempt : AttemptRef) (resolution : NotificationResolution)
      (forced : Bool)
  | notificationResolutionActionReserved (attempt : AttemptRef)
      (resolution : NotificationResolution)
  | notificationResolutionActionAccepted (attempt : AttemptRef)
      (resolution : NotificationResolution)
  | notificationResolutionConsumptionObserved (attempt : AttemptRef)
      (observation : NotificationResolutionConsumptionObservation)
  | notificationResolutionIntentWithdrawn (attempt : AttemptRef)
      (resolution : NotificationResolution)
  | notificationResolvedWithoutTerminalAction (attempt : AttemptRef)
      (resolution : NotificationResolution)
  | notificationResolved (proofVersion : Nat) (attempt : AttemptRef)
      (resolution : NotificationResolution)
  | notificationClaimedStagedCleared (attempt : AttemptRef)
  | notificationClaimedAckTimeoutReconciled (attempt : AttemptRef)
  | notificationBarrierRetired (attempt : AttemptRef)
      (cause : NotificationBarrierRetirementCause) (replacement : Option NotificationBinding)
deriving DecidableEq

end Cyclops
