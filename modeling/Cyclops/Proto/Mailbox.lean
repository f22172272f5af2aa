import Cyclops.Proto.Notification

/-!
# Mailbox records and journal rows

Message metadata, per-recipient mailbox entries, the mailbox facts, and the journal row that carries
them.
-/

namespace Cyclops

def canonicalRecordVersion : Nat := 1

def notificationResolutionProofVersion : Nat := 1

/-! ## Request digests -/

/-- A versioned digest: `v1:` and 64 lower-case hexadecimal characters. -/
def RequestDigest.isValid (value : List Char) : Bool :=
  match value.dropPrefix? "v1:".toList with
  | some hex => hex.length == 64 && hex.all isHexDigit
  | none => false

structure RequestDigest where
  text : String
  valid : RequestDigest.isValid text.toList = true
deriving DecidableEq

/-- The message fields a request digest covers, recipients sorted. -/
structure CanonicalSemanticPayload where
  kind : Kind
  sender : RecipientKey
  recipients : List RecipientKey
  subject : Option String
  summary : Option String
  body : Option String
  replyTo : Option MessageId
  supersedes : Option MessageId

/-- The hash the daemon uses, as far as the model sees it. -/
class DigestScheme where
  digest : CanonicalSemanticPayload → RequestDigest
  legacyThreadRun : MessageId → IdRun

structure RequestContent where
  subject : Option String
  summary : Option String
  body : Option String

def RequestDigest.compute [DigestScheme] (kind : Kind) (sender : RecipientKey)
    (recipients : List RecipientKey) (content : RequestContent)
    (replyTo supersedes : Option MessageId) : RequestDigest :=
  DigestScheme.digest
    { kind, sender, recipients := sortRecipients recipients, subject := content.subject,
      summary := content.summary, body := content.body, replyTo, supersedes }

def MessageId.threadKey [DigestScheme] (id : MessageId) : IdRun :=
  match id.threadPart with
  | some thread => thread
  | none => DigestScheme.legacyThreadRun id

/-- Mint the id of a message inside the thread rooted at `threadRoot`. -/
def MessageId.mintInThread [DigestScheme] (threadRoot : MessageId) (random : Uuid) : MessageId :=
  .ofRuns threadRoot.threadKey (.first random)

/-! ## Messages and mailbox entries -/

structure RecipientPresentation where
  recipient : RecipientKey
  label : String
deriving DecidableEq

structure MessagePresentation where
  senderLabel : String
  recipientLabels : List RecipientPresentation
deriving DecidableEq

structure MessageMetadata where
  recordVersion : Nat
  workspaceId : WorkspaceId
  sender : RecipientKey
  recipients : List RecipientKey
  presentation : MessagePresentation
  summary : Option String
  threadRoot : MessageId
  clientKey : Option String
  requestDigest : RequestDigest
  supersedes : Option MessageId
  raw : Bool
  broadcast : Bool
deriving DecidableEq

/-- An entry is pending until it is settled. -/
inductive MailboxEntryState where
  | pending
  | claimed (claimant : RecipientKey) (claimedAt : Nat)
  | deliveredDirect (attemptId : NotificationAttemptId) (deliveredAt : Nat)
  | superseded (supersededBy : MessageId) (supersededAt : Nat)
deriving DecidableEq

namespace MailboxEntryState

def isPending (state : MailboxEntryState) : Bool :=
  state matches pending

def isClaimed (state : MailboxEntryState) : Bool :=
  state matches claimed _ _

end MailboxEntryState

structure MailboxEntry where
  messageId : MessageId
  recipient : RecipientKey
  state : MailboxEntryState
  seq : Nat
  createdAt : Nat
deriving DecidableEq

structure MailboxListItem where
  entry : MailboxEntry
  kind : Kind
  sender : RecipientKey
  senderLabel : String
  recipientLabel : String
  subject : Option String
  replyTo : Option MessageId
  threadRoot : MessageId

/-- The facts about entries. -/
inductive MailboxFact where
  | messageClaimed (recordVersion : Nat) (messageId : MessageId) (recipient : RecipientKey)
      (claimant : RecipientKey)
  | messageDeliveredDirect (attempt : AttemptRef)
deriving DecidableEq

/-! ## Journal rows -/

/-- The type tags of the facts. -/
inductive FactType where
  | messageClaimed | messageDeliveredDirect | notification
deriving DecidableEq

/-- What a reader decodes from a row's JSON payload. `malformed` keeps a known `type` tag. -/
inductive RowData where
  | metadata (metadata : MessageMetadata)
  | mailbox (fact : MailboxFact)
  | notification (fact : NotificationFact)
  | malformed (factType : Option FactType) (error : String)
deriving DecidableEq

/-- States of deliveries in rows of older daemons. -/
inductive DeliveryState where
  | queued | gating | pasting | staged | submitted | deliveredVerified | deliveredUnverified
  | retryQueued | attentionRequired | parkedBlockedQuota
deriving DecidableEq

structure Delivery where
  sentTo : String
  state : DeliveryState
  verifiedBy : Option VerifiedBy
  attempts : Nat
  ts : Nat
  cause : Option String
deriving DecidableEq

/-- One row of an append-only journal. `sentFrom` and `sentTo` are the source's
`from` and `to`. -/
structure LedgerLine where
  seq : Nat
  bootId : String
  id : String
  ts : Nat
  kind : Kind
  sentFrom : String
  sentTo : List String
  subject : Option String
  body : Option String
  replyTo : Option String
  deliveries : List Delivery
  data : Option RowData
deriving DecidableEq

def u64Bound : Nat := 2 ^ 64

end Cyclops
