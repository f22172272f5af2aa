import Cyclops.Proto.Mailbox

/-!
# Refusals of the mailbox

Every way a mailbox operation can refuse, with the data the source attaches to it.
-/

namespace Cyclops

/-- A text of a refusal. -/
inductive Shown where
  | text (value : String)
  | debug (value : List String)

/-- The display field that differs. -/
inductive PresentationField where
  | sentFrom | sentTo

/-- The refusals. -/
inductive MailboxError where
  | messageNotFound (messageId : MessageId)
  | replyNotVisible (replyTo : MessageId) (sender : RecipientKey)
  | replyRecipientMismatch (messageId : MessageId) (expected : RecipientKey)
  | replySubjectMismatch (messageId : MessageId)
  | replyKindMismatch (messageId : MessageId)
  | threadRootMismatch (messageId expected found : MessageId)
  | entryNotFound (messageId : MessageId) (recipient : RecipientKey)
  | alreadyClaimed (messageId : MessageId) (recipient existingClaimant : RecipientKey)
  | claimantMismatch (messageId : MessageId) (recipient claimant : RecipientKey)
  | envelopeMismatch (envelopeId : String) (factId : MessageId)
  | duplicateMessageId (messageId : MessageId)
  | nonContiguousSequence (expected found : Nat)
  | duplicateIdempotencyKey (sender : RecipientKey) (key : String) (existingId : MessageId)
  | draftEmptyRecipients
  | draftDuplicateRecipient (recipient : RecipientKey)
  | emptyRecipients (messageId : MessageId)
  | duplicateRecipient (messageId : MessageId) (recipient : RecipientKey)
  | emptyClientKey
  | supersessionRequiresSingleRecipient
  | supersessionNotPending (messageId : MessageId)
  | supersessionNotificationStarted (messageId : MessageId)
  | messageNotPending (messageId : MessageId)
  | supersessionIdentityMismatch (messageId : MessageId)
  | replySupersessionConflict
  | invalidPresentation (reason : String)
  | invalidKind (kind : Kind)
  | workspaceMismatch (expected found : WorkspaceId)
  | invalidCursor (cursor head : Nat)
  | invalidRecordVersion (expected found : Nat)
  | uncanonicalRow (reason : String)
  | presentationMismatch (field : PresentationField) (presentation authoritative : Shown)
  | digestMismatch (stored computed : RequestDigest)
  | missingMetadata (id : String)
  | invalidFact (reason : String)
  | notificationNotFound (messageId : MessageId) (recipient : RecipientKey)
  | notificationMessageNotPending (messageId : MessageId) (recipient : RecipientKey)
  | directDeliveryNotProven (attemptId : NotificationAttemptId)
  | notificationAttemptReused (attemptId : NotificationAttemptId)
  | notificationAttemptMismatch (expected found : NotificationAttemptId)
  | invalidNotificationTransition (current next : NotificationState)
  | notificationBindingRequired
  | notificationBindingForbidden
  | notificationVerifiedByForbidden
  | notificationBindingMismatch
  | notificationTransportForbidden
  | notificationDoorbellFormatForbidden
  | unsupportedNotificationDoorbellFormat (format : Nat)
  | notificationCauseRequired
  | notificationCauseForbidden
  | notificationVerifyOutcomeRequired
  | notificationVerifyOutcomeForbidden
  | notificationPreWriteCauseRequired
  | notificationPreWriteObservationRequired
  | notificationPaneWidthNotNarrow (observed required : Nat)
  | notificationPreWriteReopenExhausted
  | notificationPreWriteCauseForbidden
  | invalidNotificationCause (cause : NotificationAttentionCause) (state : NotificationState)
  | notificationRecipientNotAgent
  | notificationRequeueRequiresAttention
  | notificationClearRequiresAttention
  | notificationNewerThanClearCutoff (attemptId : NotificationAttemptId) (updatedAt cutoffMs : Nat)
  | notificationClearOperatorInvalid
  | notificationWithdrawalRequiresPreWrite
  | notificationWithdrawalOperatorInvalid
  | notificationWithdrawalRecipientMismatch (expected found : RecipientKey)
  | notificationAttemptUnknown (attemptId : NotificationAttemptId)
  | notificationAttemptClaimLocatorConflict (messageId : MessageId)
  | notificationAlreadyResolved (attemptId : NotificationAttemptId)
  | notificationResolutionAmbiguous (attemptId : NotificationAttemptId)
  | notificationBarrierNotActive (attemptId : NotificationAttemptId)
  | notificationBarrierReplacementRequired
  | notificationBarrierReplacementForbidden
  | notificationBarrierReplacementUnchanged
  | notificationBarrierRetirementState (cause : NotificationBarrierRetirementCause)
      (state : NotificationState)
  | invalidNotificationFact (reason : String)
  | type (error : MailboxTypeError)

def liftType {α : Type} : Except MailboxTypeError α → Except MailboxError α
  | .ok a => .ok a
  | .error e => .error (.type e)

@[simp] theorem liftType_eq_ok {α : Type} {x : Except MailboxTypeError α} {a : α} :
    liftType x = .ok a ↔ x = .ok a := by
  cases x <;> simp [liftType]

end Cyclops
