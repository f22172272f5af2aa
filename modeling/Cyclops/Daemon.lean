import Cyclops.Mailbox.Adapter
import Cyclops.Mailbox.Snapshot

/-!
# The daemon

One workspace served by a daemon: its directory of routes, its message store, and the delivery
workers it has started.
-/

namespace Cyclops

open Checked FiniteMap MailboxService

/-- The state of a daemon. Stale workers keep running. -/
structure Daemon where
  directory : MailboxDirectory
  store : MessageStore
  contexts : List NotificationContext

def MailboxDirectory.empty (workspaceId : WorkspaceId) : MailboxDirectory :=
  ⟨workspaceId, ∅, ∅, ∅⟩

/-- What a client, a worker, the scheduler or an operator has the daemon do, atomically. -/
inductive Operation where
  | send (sender : MailboxIdentity) (request : MailboxSend) (draws : List Uuid) (env : Env)
  | reply (sender : MailboxIdentity) (request : MailboxReply) (draws : List Uuid) (env : Env)
  | claim (claimant : RecipientKey) (reference : MessageId) (env : Env)
  | prepareOldestNotification (recipient : RecipientKey) (attemptId : NotificationAttemptId)
      (env : Env)
  | reopenOldestNotification (recipient : RecipientKey)
      (observation : NotificationPreWriteObservation) (writeReady : Bool) (env : Env)
  | requeueMessage (order : MessageStore.IterationOrder) (messageId : MessageId)
      (fresh : NotificationAttemptId → NotificationAttemptId) (env : Env)
  | clearAlarms (operator : RecipientKey) (ids : List NotificationAttemptId)
      (cutoffMs : Option Nat) (draw : Uuid) (env : Env)
  | withdrawNotification (operator recipient : RecipientKey) (attemptId : NotificationAttemptId)
      (env : Env)
  | spawnWorker (messageId : MessageId) (recipient : RecipientKey)
      (attemptId : NotificationAttemptId)
  | worker (index : Nat) (step : WorkerStep) (env : Env)
  | replaceDirectory (agents : List MailboxIdentity)
  | sealJournal
  | restart (bootId : String) (order : MessageStore.IterationOrder)
      (env : NotificationAttemptId → Env)

namespace Daemon

def start (workspaceId : WorkspaceId) (bootId : String) : Daemon :=
  ⟨.empty workspaceId, .empty workspaceId bootId, []⟩

variable [DigestScheme] (d : Daemon)

/-- What an operation decides that appends at most one row. -/
def plan : Operation → Option (Except Failure (Plan Unit) × Env)
  | .send sender request draws env =>
    some (discardAnswer (send d.directory d.store sender request draws env.now), env)
  | .reply sender request draws env =>
    some (discardAnswer (replyWithSummary d.directory d.store sender request draws env.now), env)
  | .claim claimant reference env =>
    some (discardAnswer (claim d.store claimant reference env.now), env)
  | .prepareOldestNotification recipient attemptId env =>
    some (discardAnswer (.ok (prepareOldestNotification d.store recipient attemptId env.now)), env)
  | .reopenOldestNotification recipient observation writeReady env =>
    some (discardAnswer
      (.ok (reopenOldestNotificationAfterRouteEvidence d.store recipient observation
        writeReady env.now)), env)
  | .requeueMessage order messageId fresh env =>
    some (discardAnswer (liftMailbox (requeueMessage d.store order messageId fresh env.now)), env)
  | .clearAlarms operator ids cutoffMs draw env =>
    some (discardAnswer (liftMailbox (clearAlarms d.store operator ids cutoffMs env.now draw)), env)
  | .withdrawNotification operator recipient attemptId env =>
    some (discardAnswer (liftMailbox
      (withdrawNotificationBeforeWrite d.store operator recipient attemptId env.now)), env)
  | .worker index step env =>
    (d.contexts[index]?).map fun context => (context.plan d.store step env.now, env)
  | _ => none

def restart (bootId : String) (order : MessageStore.IterationOrder)
    (env : NotificationAttemptId → Env) : Daemon :=
  let workspaceId := d.store.projection.workspaceId
  match MessageStore.openJournal workspaceId bootId d.store.writer.records with
  | .error _ => d
  | .ok store =>
    ⟨.empty workspaceId, (store.recoverNotificationsAfterRestart order env).1, []⟩

/-- One operation, atomically. -/
def step (op : Operation) : Daemon :=
  match op with
  | .spawnWorker messageId recipient attemptId =>
    { d with
      contexts := d.contexts ++ [.new d.store.projection messageId recipient attemptId] }
  | .replaceDirectory agents =>
    match MailboxDirectory.new d.directory.workspaceId agents with
    | .error _ => d
    | .ok directory => { d with directory }
  | .sealJournal => { d with store := { d.store with writer := d.store.writer.sealWriter } }
  | .restart bootId order env => d.restart bootId order env
  | op =>
    match d.plan op with
    | none => d
    | some (plan, env) => { d with store := (d.store.perform plan env).1 }

def run (ops : List Operation) : Daemon :=
  ops.foldl step d

end Daemon

/-! ## A small workspace (used by the concrete runs) -/

@[reducible] def constantDigests : DigestScheme where
  digest := fun _ =>
    ⟨"v1:0000000000000000000000000000000000000000000000000000000000000000", by decide⟩
  legacyThreadRun := fun _ => .first 1

def sampleWorkspace : WorkspaceId := ⟨⟨1, by decide⟩⟩

def sampleAdmin : MailboxIdentity := ⟨.admin sampleWorkspace, "admin"⟩

def sampleWorker : MailboxIdentity :=
  ⟨⟨sampleWorkspace, .agent ⟨⟨2, by decide⟩⟩ ⟨1⟩⟩, "worker"⟩

def sampleTask (body : String) (draw : Uuid) (now : Nat) : Operation :=
  .send sampleAdmin ⟨["worker"], none, "task", none, body, false, none, none, false⟩ [draw]
    ⟨now, .written⟩

def sampleDraw : Uuid := 0x11111111000000000000000011111111

def sampleDraw' : Uuid := 0x22222222000000000000000022222222

def sampleMessage : MessageId := letI := constantDigests; .mintRoot sampleDraw

def sampleMessage' : MessageId := letI := constantDigests; .mintRoot sampleDraw'

def sampleAttempt : NotificationAttemptId := ⟨10, by decide⟩

def sampleAttempt' : NotificationAttemptId := ⟨11, by decide⟩

def sampleWriting : WorkerStep :=
  .recordWriting ⟨1, 1, by decide, by decide⟩ ⟨2, 2, by decide, by decide⟩
    ⟨3, 3, by decide, by decide⟩ "manifest" .doorbell none

/-- Two tasks for the worker, and the first one taken up to its write. -/
def sampleOps : List Operation := [ .replaceDirectory [sampleWorker], sampleTask "one" sampleDraw 1,
  sampleTask "two" sampleDraw' 2,
  .prepareOldestNotification sampleWorker.key sampleAttempt ⟨3, .written⟩,
  .spawnWorker sampleMessage sampleWorker.key sampleAttempt,
  .worker 0 .recordGating ⟨4, .written⟩,
  .worker 0 sampleWriting ⟨5, .written⟩]

def sampleDaemon (more : List Operation) : Daemon :=
  letI := constantDigests
  (Daemon.start sampleWorkspace "boot").run (sampleOps ++ more)

end Cyclops
