import Cyclops.Mailbox.Commit
import Cyclops.Mailbox.Ledger

/-!
# The message store

Durable owner of one workspace journal and its projection.
-/

namespace Cyclops

open Checked FiniteMap

/-! ## Failures and plans -/

/-- Refusals of a worker's step. -/
inductive NotificationAdapterError where
  | noLongerCurrentBeforeWrite
  | terminalConflict (state : NotificationState)
  | invalidBinding
  | messageMissing

/-- Why an operation failed. `panicked` stands for an `expect` of the source that fired. -/
inductive Failure where
  | mailbox (error : MailboxError)
  | ledger (error : LedgerError)
  | directory (error : MailboxDirectoryError)
  | adapter (error : NotificationAdapterError)
  | foreignDirectory
  | operatorRequired
  | mintUnfinished
  | panicked

def liftMailbox {α : Type} : Except MailboxError α → Except Failure α
  | .ok a => .ok a
  | .error e => .error (.mailbox e)

@[simp] theorem liftMailbox_eq_ok {α : Type} {x : Except MailboxError α} {a : α} :
    liftMailbox x = .ok a ↔ x = .ok a := by
  cases x <;> simp [liftMailbox]

/-- What an operation decided: an answer, or one row to append and the answer to
read from the projection after it. -/
inductive Plan (α : Type) where
  | answer (value : α)
  | append (line : LedgerLine) (result : MailboxProjection → Option α)

def Plan.map {α β : Type} (f : α → β) : Plan α → Plan β
  | .answer value => .answer (f value)
  | .append line result => .append line fun p => (result p).map f

def discardAnswer {α : Type} (plan : Except Failure (Plan α)) : Except Failure (Plan Unit) :=
  plan.map fun plan => plan.map fun _ => ()

structure Env where
  now : Nat
  io : AppendIo

/-! ## The store -/

structure MessageStore where
  writer : LedgerWriter
  projection : MailboxProjection

namespace MessageStore

def empty (workspaceId : WorkspaceId) (bootId : String) : MessageStore where
  writer := {
    bootId, nextSeq := 1, writeStateUnknown := false, writerSealed := false, lines := [],
    unacknowledged := none }
  projection := .new workspaceId

def openJournal [DigestScheme] (workspaceId : WorkspaceId) (bootId : String)
    (records : List LedgerLine) : Except Failure MessageStore := do
  let writer ← (LedgerWriter.openStrict bootId records).mapError Failure.ledger
  let projection ← (replay workspaceId records).mapError fun
    | .refused error => Failure.mailbox error
    | .panicked => Failure.panicked
  return { writer, projection }

def append [DigestScheme] (store : MessageStore) (line : LedgerLine) (env : Env) :
    MessageStore × Except Failure Unit :=
  match store.projection.prepareLine line with
  | .error error => (store, .error (.mailbox error))
  | .ok prepared =>
    match store.writer.append line env.now env.io with
    | (writer, .error error) => ({ store with writer }, .error (.ledger error))
    | (writer, .ok persisted) =>
      match store.projection.commitLine persisted prepared with
      | none => ({ store with writer }, .error .panicked)
      | some projection => ({ writer, projection }, .ok ())

/-- Validate, append, and only then apply. -/
def perform [DigestScheme] {α : Type} (store : MessageStore) (plan : Except Failure (Plan α))
    (env : Env) : MessageStore × Except Failure α :=
  match plan with
  | .error error => (store, .error error)
  | .ok (.answer value) => (store, .ok value)
  | .ok (.append line result) =>
    match store.append line env with
    | (store, .error error) => (store, .error error)
    | (store, .ok ()) => (store, orRefuse (result store.projection) .panicked)

/-! ## Rows -/

def stamp (ts now : Nat) : Nat :=
  if ts = 0 then max now 1 else ts

def stateRow (store : MessageStore) (id : String) (ts : Nat) (sentFrom : String)
    (sentTo : List String) (data : RowData) : LedgerLine where
  seq := store.writer.nextSeq
  bootId := store.writer.bootId
  id
  ts
  kind := .state
  sentFrom
  sentTo
  subject := none
  body := none
  replyTo := none
  deliveries := []
  data := some data

end MessageStore

/-! ## Accepting messages -/

structure MessageDraft where
  kind : Kind
  sender : RecipientKey
  recipients : List RecipientKey
  presentation : MessagePresentation
  subject : Option String
  summary : Option String
  body : Option String
  clientKey : Option String
  supersedes : Option MessageId
  raw : Bool
  broadcast : Bool

structure ReplyDraft where
  sender : RecipientKey
  reference : MessageId
  summary : Option String
  body : Option String
  clientKey : Option String
  senderLabel : String
  recipientLabel : String
  raw : Bool

/-- Durable acceptance result used to suppress duplicate notification work. -/
structure AcceptResult where
  messageId : MessageId
  threadRoot : MessageId
  inserted : Bool
  seq : Nat
  recipients : List String
  recipientKeys : List RecipientKey

def MessageDraft.canonical (draft : MessageDraft) : CanonicalDraft :=
  { draft with replyTo := none }

namespace MessageStore

variable (store : MessageStore)

def existingResult (messageId : MessageId) : Except Failure AcceptResult := do
  let message ← orRefuse (store.projection.getMessage messageId) .panicked
  let metadata ← liftMailbox (extractMessageMetadata message)
  return {
    messageId
    threadRoot := metadata.threadRoot
    inserted := false
    seq := message.seq
    recipients := message.sentTo
    recipientKeys := metadata.recipients }

def draftThreadRoot (messageId : MessageId) (draft : CanonicalDraft) :
    Except MailboxError MessageId :=
  match draft.replyTo with
  | some reference => do
    let derived ← store.projection.deriveReply draft.sender reference
    return derived.threadRoot
  | none => do
    let root ← store.projection.supersessionThreadRoot draft.sender draft.recipients
      draft.supersedes
    return root.getD messageId

def draftMetadata (draft : CanonicalDraft) (threadRoot : MessageId)
    (requestDigest : RequestDigest) : MessageMetadata where
  recordVersion := canonicalRecordVersion
  workspaceId := store.projection.workspaceId
  sender := draft.sender
  recipients := draft.recipients
  presentation := draft.presentation
  summary := draft.summary
  threadRoot
  clientKey := draft.clientKey
  requestDigest
  supersedes := draft.supersedes
  raw := draft.raw
  broadcast := draft.broadcast

def messageRow (messageId : MessageId) (draft : CanonicalDraft) (recipientLabels : List String)
    (metadata : MessageMetadata) (ts : Nat) : LedgerLine where
  seq := store.writer.nextSeq
  bootId := store.writer.bootId
  id := messageId.text
  ts
  kind := draft.kind
  sentFrom := draft.presentation.senderLabel
  sentTo := recipientLabels
  subject := draft.subject
  body := draft.body
  replyTo := draft.replyTo.map MessageId.text
  deliveries := []
  data := some (.metadata metadata)

def acceptCanonicalAt [DigestScheme] (messageId : MessageId) (draft : CanonicalDraft)
    (ts now : Nat) : Except Failure (Plan AcceptResult) := do
  match ← liftMailbox (store.projection.checkAcceptance draft) with
  | .existing existing =>
    let result ← store.existingResult existing
    return .answer result
  | .new requestDigest =>
    let threadRoot ← liftMailbox (store.draftThreadRoot messageId draft)
    let metadata := store.draftMetadata draft threadRoot requestDigest
    let labels ← liftMailbox (presentationLabels draft.recipients draft.presentation)
    let line := store.messageRow messageId draft labels.2 metadata (stamp ts now)
    return .append line fun _ => some {
      messageId, threadRoot, inserted := true, seq := line.seq, recipients := line.sentTo
      recipientKeys := metadata.recipients }

def acceptAt [DigestScheme] (messageId : MessageId) (draft : MessageDraft) (ts now : Nat) :
    Except Failure (Plan AcceptResult) :=
  store.acceptCanonicalAt messageId draft.canonical ts now

def replyAt [DigestScheme] (messageId : MessageId) (draft : ReplyDraft) (ts now : Nat) :
    Except Failure (Plan AcceptResult) := do
  let derived ← liftMailbox (store.projection.deriveReply draft.sender draft.reference)
  store.acceptCanonicalAt messageId
    { kind := .msg
      sender := draft.sender
      recipients := [derived.recipient]
      presentation := ⟨draft.senderLabel, [⟨derived.recipient, draft.recipientLabel⟩]⟩
      subject := derived.subject
      summary := draft.summary
      body := draft.body
      replyTo := some draft.reference
      clientKey := draft.clientKey
      supersedes := none
      raw := draft.raw
      broadcast := false } ts now

def mintCandidate [DigestScheme] (threadRoot : Option MessageId) (random : Uuid) : MessageId :=
  match threadRoot with
  | some root => .mintInThread root random
  | none => .mintRoot random

/-- Mint an id that names no message of the journal, drawing again on a
collision. `none` when every draw collides. -/
def mintMessageId [DigestScheme] (threadRoot : Option MessageId) (draws : List Uuid) :
    Option MessageId :=
  (draws.map (mintCandidate threadRoot)).find? fun candidate =>
    (store.projection.getMessage candidate).isNone

end MessageStore

end Cyclops
