import Cyclops.Daemon.Crossing

/-!
# The notification engine

The worker of one recipient: a queue of delivery handles, the handle it has taken from the queue,
the task that drives this handle through gate, paste, submit and receipt, and the supervisor that
takes over when the task or the loop around it fails.
-/

namespace Cyclops

open Checked FiniteMap

/-! ## Delivery handles -/

/-- One delivery of one attempt; the durable record is the notification fact. -/
structure DeliveryHandle where
  notification : NotificationContext
  notificationTransport : Option NotificationTransport
  state : DeliveryState
  attempts : Nat
  regates : Nat
  workerRecoveries : Nat

namespace DeliveryHandle

def forNotification (notification : NotificationContext) : DeliveryHandle where
  notification
  notificationTransport := none
  state := .queued
  attempts := 0
  regates := 0
  workerRecoveries := 0

variable (handle : DeliveryHandle)

def advance (allowedFrom : List DeliveryState) (next : DeliveryState) : Option DeliveryHandle :=
  if handle.state ∈ allowedFrom then some { handle with state := next } else none

def advanceAny (allowedFrom : List DeliveryState) (next : DeliveryState) : DeliveryHandle :=
  (handle.advance allowedFrom next).getD handle

def receiptIsResolved : Bool :=
  handle.state matches .deliveredVerified | .deliveredUnverified

end DeliveryHandle

/-! ## Failures of an attempt -/

/-- Which side of its write a failure is on. -/
inductive WriteBoundary where
  | beforeWrite | afterWrite
deriving DecidableEq

structure AttemptFailure where
  cause : String
  boundary : WriteBoundary
  preWriteBlock : Option NotificationPreWriteCause
  regate : Bool

namespace AttemptFailure

def blockedBeforeWrite (cause : String) (block : NotificationPreWriteCause) : AttemptFailure :=
  ⟨cause, .beforeWrite, some block, false⟩

def afterWrite (cause : String) : AttemptFailure :=
  ⟨cause, .afterWrite, none, false⟩

def sessionDetached : AttemptFailure := blockedBeforeWrite "session_detached" .sessionUnavailable

def noManifest : AttemptFailure := blockedBeforeWrite "no_manifest" .manifestUnavailable

def payloadUnavailable : AttemptFailure :=
  blockedBeforeWrite "payload_unavailable" .payloadUnavailable

def paneReboundBeforePaste : AttemptFailure :=
  blockedBeforeWrite "pane_rebound" .writeReadinessChanged

def barrierHeld : AttemptFailure := ⟨"barrier_held", .beforeWrite, none, true⟩

def spoolFailed : AttemptFailure := blockedBeforeWrite "spool_failed" .spoolFailed

def pasteCommandUnwritten : AttemptFailure :=
  blockedBeforeWrite "paste_command_unwritten" .pasteCommandUnwritten

def pasteFailed : AttemptFailure := afterWrite "paste_failed"

def paneReboundAfterPaste : AttemptFailure := afterWrite "pane_rebound_after_paste"

def submitFailed : AttemptFailure := afterWrite "submit_failed"

def notificationRecordFailed : AttemptFailure := afterWrite "notification_record_failed"

/-- Only failures that precede the write may be tried again, within the budget. -/
def shouldRetry (failure : AttemptFailure) (spent retryMax : Nat) : Bool :=
  failure.cause != "paste_command_unwritten" && failure.boundary == .beforeWrite && spent ≤ retryMax

end AttemptFailure

def notificationAttentionCause (cause : String) : NotificationAttentionCause :=
  if cause = "paste_failed" then .pasteFailed
  else if cause = "pane_rebound_after_paste" then .paneReboundAfterPaste
  else if cause = "submit_failed" then .submitFailed
  else .transportOutcomeUnknown

/-- Why a task stops before the write. -/
inductive EarlyFailure where
  | sessionDetached | noManifest | payloadUnavailable | paneRebound | barrierHeld | spoolFailed
  | recordFailed

def EarlyFailure.failure : EarlyFailure → AttemptFailure
  | sessionDetached => .sessionDetached
  | noManifest => .noManifest
  | payloadUnavailable => .payloadUnavailable
  | paneRebound => .paneReboundBeforePaste
  | barrierHeld => .barrierHeld
  | spoolFailed => .spoolFailed
  | recordFailed => .notificationRecordFailed

/-! ## What the task meets -/

/-- What the gate lets a task write, and to whom. -/
inductive Admission where
  | doorbell (paneRoot leader agent : ProcessInstanceId) (manifest : String)
  | raw
deriving DecidableEq

/-- The answers of the gate. -/
inductive GateOutcome where
  | proceed (admission : Admission)
  | blockedPreWrite (cause : NotificationPreWriteCause)
      (observation : NotificationPreWriteObservation)
  | deferred
  | withdrawn

/-- How a paste ends. -/
inductive PasteOutcome where
  | pasted (stagingVerified : Bool)
  | commandUnwritten
  | failed

/-- How the submit key ends. -/
inductive SubmitOutcome where
  | sent | rebound | failed

/-- How the receipt wait ends. -/
inductive AckOutcome where
  | resolved | screen | timeout | rebound

/-- What a section of the worker meets outside. -/
inductive Answer where
  | go
  | store (env : Env)
  | gate (outcome : GateOutcome)
  | refuse (failure : EarlyFailure)
  | write (doorbellFormat : Option Nat) (env : Env)
  | block (routeEvidence : NotificationRouteEvidenceId) (env : Env)
  | paste (outcome : PasteOutcome)
  | submit (outcome : SubmitOutcome)
  | early (found : Bool) (env : Env)
  | ack (outcome : AckOutcome)
  | replace (kept : Bool)

/-! ## The task of one delivery -/

/-- Where the task of a delivery is: what it does next. -/
inductive Point where
  | start
  | recordGating
  | gate
  | block (cause : NotificationPreWriteCause) (observation : Option NotificationPreWriteObservation)
  | attempt (admission : Admission)
  | paste (admission : Admission)
  | unwritten
  | stage (admission : Admission) (stagingVerified : Bool)
  | submit (stagingVerified : Bool)
  | submitRaw
  | recordSubmitted (stagingVerified : Bool)
  | markSubmitted
  | settle
  | earlyReceipt
  | awaitAck
  | receipt (verifiedBy : Option VerifiedBy)
  | attention (cause : String)
deriving DecidableEq

/-- What a task does after a section. -/
inductive Next where
  | goOn (point : Point)
  | done
  | handBack
  | fault

section Task

variable [DigestScheme]

def Daemon.perform {α : Type} (d : Daemon) (plan : Except Failure (Plan α)) (env : Env) :
    Daemon × Except Failure α :=
  ({ d with store := (d.store.perform plan env).1 }, (d.store.perform plan env).2)

def Daemon.record (d : Daemon) (context : NotificationContext) (step : WorkerStep) (env : Env) :
    Daemon × Except Failure Unit :=
  d.perform (context.plan d.store step env.now) env

/-- Whether a failed pre-write block says that the attempt is no longer this
worker's to block. -/
def obsoleteBlock : Failure → Bool
  | .adapter .noLongerCurrentBeforeWrite => true
  | .adapter (.terminalConflict state) =>
    (state matches .withdrawn | .withdrawnByOperator | .superseded)
  | _ => false

/-- The observation of a readiness race names at least the route it was made on. -/
def blockObservation (cause : NotificationPreWriteCause)
    (observation : Option NotificationPreWriteObservation)
    (routeEvidence : NotificationRouteEvidenceId) : Option NotificationPreWriteObservation :=
  if cause = .writeReadinessChanged ∧ observation = none then
    some ⟨none, none, none, none, some routeEvidence, none, none⟩
  else observation

def blockWakeBlock (cause : NotificationPreWriteCause) : Option MessageWakeBlock :=
  if cause = .composerOwnershipUnproven then some .composerOwnershipUnproven else none

namespace DeliveryHandle

def regateOrReturn (handle : DeliveryHandle) (allowedFrom : List DeliveryState) :
    DeliveryHandle × Next :=
  match handle.advance allowedFrom .retryQueued with
  | none => (handle, .done)
  | some handle =>
    match handle.advance [.retryQueued] .gating with
    | none => (handle, .done)
    | some handle => (handle, .goOn .gate)

/-- What follows a failed attempt: the gate again, a block, nothing, or
attention. -/
def failAttempt (retryMax : Nat) (handle : DeliveryHandle) (failure : AttemptFailure) :
    DeliveryHandle × Next :=
  if failure.regate then
    regateOrReturn { handle with regates := handle.regates + 1 } [.pasting]
  else if failure.shouldRetry (handle.attempts - handle.regates) retryMax then
    handle.regateOrReturn [.pasting, .staged, .submitted, .retryQueued]
  else
    match failure.preWriteBlock, failure.boundary with
    | some cause, _ => (handle, .goOn (.block cause none))
    | none, .beforeWrite => (handle, .done)
    | none, .afterWrite => (handle, .goOn (.attention failure.cause))

/-- The gate has answered, and the attempt is still this worker's. -/
def afterGate (handle : DeliveryHandle) (paused : Bool) : GateOutcome → DeliveryHandle × Next
  | .withdrawn => (handle, .done)
  | .deferred => (handle, .done)
  | .blockedPreWrite cause observation => (handle, .goOn (.block cause (some observation)))
  | .proceed admission =>
    if paused then
      match handle.advance [.gating] .retryQueued with
      | none => (handle, .done)
      | some handle => (handle, .handBack)
    else
      let handle := { handle with attempts := handle.attempts + 1 }
      match handle.advance [.gating] .pasting with
      | none => (handle, .done)
      | some handle => (handle, .goOn (.attempt admission))

def writeStep (doorbellFormat : Option Nat) : Admission → WorkerStep × NotificationTransport
  | .doorbell paneRoot leader agent manifest =>
    (.recordWriting paneRoot leader agent manifest .doorbell doorbellFormat, .doorbell)
  | .raw => (.recordWritingRaw, .raw)

/-- One section of `process`. None when the answer is to another question. -/
def process (retryMax : Nat) (paused : Bool) (d : Daemon) (handle : DeliveryHandle) :
    Point → Answer → Option (Daemon × DeliveryHandle × Next)
  | .start, .go =>
    match handle.advance [.queued, .retryQueued] .gating with
    | none => some (d, handle, .done)
    | some handle => some (d, handle, .goOn .recordGating)
  | .recordGating, .store env =>
    match d.record handle.notification .recordGating env with
    | (d, .ok ()) => some (d, handle, .goOn .gate)
    | (d, .error _) => some (d, handle, .done)
  | .gate, .gate outcome =>
    match handle.notification.ownedGating d.store with
    | .error _ => some (d, handle, .done)
    | .ok _ => some (d, handle.afterGate paused outcome)
  | .block cause observation, .block routeEvidence env =>
    match d.record handle.notification (.recordPreWriteBlock cause
        (blockObservation cause observation routeEvidence) (blockWakeBlock cause)) env with
    | (d, .ok ()) => some (d, handle, .done)
    | (d, .error error) => some (d, handle, if obsoleteBlock error then .done else .fault)
  | .attempt _, .refuse failure => some (d, handle.failAttempt retryMax failure.failure)
  | .attempt admission, .write doorbellFormat env =>
    let (step, transport) := writeStep doorbellFormat admission
    let handle := { handle with notificationTransport := some transport }
    match d.record handle.notification step env with
    | (d, .ok ()) => some (d, handle, .goOn (.paste admission))
    | (d, .error (.adapter .noLongerCurrentBeforeWrite)) => some (d, handle, .done)
    | (d, .error _) => some (d, handle.failAttempt retryMax .notificationRecordFailed)
  | .paste _, .paste .commandUnwritten => some (d, handle, .goOn .unwritten)
  | .paste _, .paste .failed => some (d, handle.failAttempt retryMax .pasteFailed)
  | .paste admission, .paste (.pasted stagingVerified) =>
    some (d, handle, .goOn (.stage admission stagingVerified))
  | .unwritten, .store env =>
    match d.record handle.notification .recordPasteCommandUnwritten env with
    | (d, .ok ()) => some (d, handle.failAttempt retryMax .pasteCommandUnwritten)
    | (d, .error _) => some (d, handle.failAttempt retryMax .notificationRecordFailed)
  | .stage (.doorbell _ _ _ _) stagingVerified, .go =>
    match handle.advance [.pasting] .staged with
    | none => some (d, handle, .done)
    | some handle => some (d, handle, .goOn (.submit stagingVerified))
  | .stage .raw _, .go =>
    match handle.advance [.pasting] .submitted with
    | none => some (d, handle, .done)
    | some handle => some (d, handle, .goOn .submitRaw)
  | .submit _, .submit .rebound => some (d, handle.failAttempt retryMax .paneReboundAfterPaste)
  | .submit _, .submit .failed => some (d, handle.failAttempt retryMax .submitFailed)
  | .submit stagingVerified, .submit .sent =>
    some (d, handle, .goOn (.recordSubmitted stagingVerified))
  | .submitRaw, .submit .failed => some (d, handle.failAttempt retryMax .submitFailed)
  | .submitRaw, .submit .sent => some (d, handle, .goOn (.receipt none))
  | .recordSubmitted stagingVerified, .store env =>
    match d.record handle.notification
        (if stagingVerified then .recordSubmitted else .recordSubmittedUnverified) env with
    | (d, .ok ()) => some (d, handle, .goOn .markSubmitted)
    | (d, .error _) => some (d, handle.failAttempt retryMax .notificationRecordFailed)
  | .markSubmitted, .go =>
    match handle.advance [.staged] .submitted with
    | none => some (d, handle, .done)
    | some handle => some (d, handle, .goOn .settle)
  | .settle, .early found env =>
    match d.perform (handle.notification.settleSubmittedClaim d.store env.now) env with
    | (d, .error _) => some (d, handle.failAttempt retryMax .notificationRecordFailed)
    | (d, .ok true) =>
      some (d, handle.advanceAny [.submitted]
        (if found then .deliveredVerified else .deliveredUnverified), .done)
    | (d, .ok false) => some (d, handle, .goOn (if found then .earlyReceipt else .awaitAck))
  | .earlyReceipt, .store env =>
    match d.record handle.notification (.recordNotified (some .hook)) env with
    | (d, .ok ()) =>
      match handle.advance [.submitted] .deliveredVerified with
      | some handle => some (d, handle, .done)
      | none => some (d, handle, .goOn .awaitAck)
    | (d, .error (.adapter (.terminalConflict _))) => some (d, handle, .done)
    | (d, .error _) => some (d, handle.failAttempt retryMax .notificationRecordFailed)
  | .awaitAck, .ack .resolved =>
    if handle.receiptIsResolved then some (d, handle, .done) else none
  | .awaitAck, .ack .screen => some (d, handle, .goOn (.receipt (some .screen)))
  | .awaitAck, .ack .timeout => some (d, handle, .goOn (.receipt none))
  | .awaitAck, .ack .rebound => some (d, handle, .goOn (.receipt none))
  | .receipt verifiedBy, .store env =>
    match d.record handle.notification (.recordNotified verifiedBy) env with
    | (d, .ok ()) => some (d, handle.advanceAny [.submitted] .deliveredUnverified, .done)
    | (d, .error (.adapter (.terminalConflict _))) => some (d, handle, .done)
    | (d, .error _) => some (d, handle.failAttempt retryMax .notificationRecordFailed)
  | .attention cause, .store env =>
    let closed := handle.advanceAny [.pasting, .staged, .submitted, .retryQueued] .attentionRequired
    match d.record handle.notification (.recordAttention (notificationAttentionCause cause))
        env with
    | (d, .ok ()) => some (d, closed, .done)
    | (d, .error (.adapter (.terminalConflict _))) => some (d, handle, .done)
    | (d, .error _) => some (d, closed, .fault)
  | _, _ => none

end DeliveryHandle

end Task

/-! ## The worker and its supervisor -/

/-- Where the worker of a recipient stands. -/
inductive Stage where
  | looping
  | running (point : Point)
  | returned
  | failed
  | failGating
  | failBlock
  | failAttention
  | releasing
  | halted
deriving DecidableEq

def Stage.ofLoop : Stage → Bool
  | .running _ | .halted => false
  | _ => true

def Stage.isRunning : Stage → Bool
  | .running _ => true
  | _ => false

structure Worker where
  queue : List DeliveryHandle
  current : Option DeliveryHandle
  faulted : Bool
  /-- Whether the loop has failed without a job since the last one was finished. -/
  emptyRestarts : Bool
  stage : Stage

namespace Worker

def new (handle : DeliveryHandle) : Worker where
  queue := [handle]
  current := none
  faulted := false
  emptyRestarts := false
  stage := .looping

variable (worker : Worker)

def currentOrNext : Option DeliveryHandle × Worker :=
  match worker.current, worker.queue with
  | some handle, _ => (some handle, worker)
  | none, handle :: queue => (some handle, { worker with queue, current := some handle })
  | none, [] => (none, worker)

def finish : Worker :=
  { worker with current := none, emptyRestarts := false }

def follow (handle : DeliveryHandle) : Next → Worker
  | .goOn point => { worker with current := some handle, stage := .running point }
  | .done => { worker with current := some handle, stage := .returned }
  | .handBack =>
    { worker with queue := handle :: worker.queue, current := none, stage := .returned }
  | .fault => { worker with current := some handle, faulted := true, stage := .returned }

def halt : Worker :=
  { worker with faulted := true, stage := .halted }

end Worker

/-- A handle its worker has forgotten, with the record of its entry then. -/
structure Release where
  notification : NotificationContext
  record : Option NotificationRecord

/-- A daemon, and the worker of one recipient with what it has released. -/
structure Engine where
  daemon : Daemon
  prepared : List (MessageId × NotificationAttemptId)
  worker : Option Worker
  paused : Bool
  stopping : Bool
  released : List Release

structure EngineConfig where
  recipient : RecipientKey
  deliveryRetryMax : Nat

/-- A step of the rest of the daemon, of the scheduler, or of the worker. -/
inductive EngineEvent where
  | daemon (op : Operation)
  | restart (bootId : String) (order : MessageStore.IterationOrder)
      (env : NotificationAttemptId → Env)
  | prepare (attemptId : NotificationAttemptId) (env : Env)
  | reopen (observation : NotificationPreWriteObservation) (writeReady : Bool) (env : Env)
  | enqueue (index : Nat)
  | resolve (verified : Bool)
  | pause
  | resume
  | stop
  | work (answer : Answer)
  | fail
  | cut
  | loopFails
  | loopCut

namespace Engine

def boot (daemon : Daemon) (released : List Release) : Engine where
  daemon
  prepared := []
  worker := none
  paused := false
  stopping := false
  released

variable [DigestScheme] (cfg : EngineConfig) (e : Engine)

def release (worker : Worker) (handle : DeliveryHandle) : Engine :=
  { e with
    worker := some { worker.finish with stage := .looping }
    released := e.released ++ [⟨handle.notification, handle.notification.current e.daemon.store⟩] }

def schedule (outcome : Daemon × Except Failure (Option NotificationRecord)) : Engine :=
  { e with
    daemon := outcome.1
    prepared := match outcome.2 with
      | .ok (some record) => e.prepared ++ [(record.messageId, record.attemptId)]
      | _ => e.prepared }

def enqueue (messageId : MessageId) (attemptId : NotificationAttemptId) : Engine :=
  let handle := DeliveryHandle.forNotification
    (.new e.daemon.store.projection messageId cfg.recipient attemptId)
  if e.stopping then e
  else
    match e.worker with
    | none => { e with worker := some (.new handle) }
    | some worker =>
      if worker.stage = .halted then { e with worker := some worker.halt }
      else if worker.faulted then e
      else { e with worker := some { worker with queue := worker.queue ++ [handle] } }

def resolve (verified : Bool) (handle : DeliveryHandle) : DeliveryHandle :=
  if verified then
    if handle.state = .deliveredUnverified ∨
        ((handle.notification.current e.daemon.store).any fun record =>
          handle.notification.owns record && record.state == .notified) = true then
      handle.advanceAny [.submitted, .deliveredUnverified] .deliveredVerified
    else handle
  else if handle.notificationTransport = some .doorbell ∧
      e.daemon.store.projection.claimedByRecipient cfg.recipient
        handle.notification.messageId = true then
    handle.advanceAny [.submitted] .deliveredUnverified
  else handle

def recoverFailedJob (worker : Worker) (handle : DeliveryHandle) (kept : Bool) : Worker :=
  let failed := { handle with workerRecoveries := handle.workerRecoveries + 1 }
  let worker := { worker with current := some failed }
  match handle.notification.current e.daemon.store with
  | none => worker.halt
  | some record =>
    if handle.notification.owns record = false then { worker with stage := .releasing }
    else
      match record.state with
      | .queued | .gating =>
        if handle.workerRecoveries = 0 then
          let fresh := { DeliveryHandle.forNotification handle.notification with
            workerRecoveries := 1 }
          if kept then { worker with current := some fresh, stage := .looping }
          else { worker.finish with faulted := true, stage := .halted }
        else { worker with stage := .failGating }
      | .writing | .staged | .submitting | .submitted => { worker with stage := .failAttention }
      | .notified => { worker with stage := .releasing }
      -- The source groups the states below as finished, the third one too.
      | .blockedPreWrite | .quotaHeld | .quotaResetObserved | .submittedUnverified
      | .attentionRequired | .withdrawn | .withdrawnAfterStaging | .withdrawnByOperator
      | .superseded => { worker with stage := .releasing }

def recoverWith (worker : Worker) (handle : DeliveryHandle) (step : WorkerStep) (env : Env)
    (next : Stage) (obsolete : Failure → Bool) : Engine :=
  match e.daemon.record handle.notification step env with
  | (daemon, .ok ()) => { e with daemon, worker := some { worker with stage := next } }
  | (daemon, .error error) =>
    { e with
      daemon
      worker := some (if obsolete error then { worker with stage := .releasing }
        else worker.halt) }

def work (worker : Worker) (answer : Answer) : Engine :=
  match worker.stage, worker.current, answer with
  | .looping, _, .go =>
    if e.paused then
      if worker.current = none ∧ worker.queue = [] then { e with worker := none } else e
    else
      match worker.currentOrNext with
      | (none, _) => { e with worker := none }
      | (some _, worker) => { e with worker := some { worker with stage := .running .start } }
  | .running point, some handle, answer =>
    match handle.process cfg.deliveryRetryMax e.paused e.daemon point answer with
    | none => e
    | some (daemon, handle, next) =>
      { e with daemon, worker := some (worker.follow handle next) }
  | .returned, current, .go =>
    if worker.faulted then { e with worker := some { worker with stage := .halted } }
    else
      match current with
      | some handle => e.release worker handle
      | none => { e with worker := some { worker with stage := .looping } }
  | .failed, some handle, .replace kept =>
    { e with worker := some (e.recoverFailedJob worker handle kept) }
  | .failGating, some handle, .store env =>
    e.recoverWith worker handle .recordGating env .failBlock obsoleteBlock
  | .failBlock, some handle, .store env =>
    e.recoverWith worker handle (.recordPreWriteBlock .workerFailed none none) env .releasing
      obsoleteBlock
  | .failAttention, some handle, .store env =>
    e.recoverWith worker handle (.recordAttention .transportOutcomeUnknown) env .releasing
      fun _ => false
  | .releasing, some handle, .go => e.release worker handle
  | _, _, _ => e

/-- The loop of the worker has failed: take the job it owned, or the next one. -/
def recoverOuterWorker (worker : Worker) : Worker :=
  match worker.currentOrNext with
  | (some _, worker) => { worker with stage := .failed }
  | (none, worker) =>
    if worker.emptyRestarts = false then
      { worker with emptyRestarts := true, stage := .looping }
    else worker.halt

/-- One event. An event that cannot happen changes nothing. -/
def step : EngineEvent → Engine
  | .daemon op =>
    if e.daemon.apart cfg.recipient op then { e with daemon := e.daemon.step op } else e
  | .restart bootId order env => boot (e.daemon.step (.restart bootId order env)) e.released
  | .prepare attemptId env =>
    e.schedule (e.daemon.perform (.ok (MailboxService.prepareOldestNotification e.daemon.store
      cfg.recipient attemptId env.now)) env)
  | .reopen observation writeReady env =>
    e.schedule (e.daemon.perform
      (.ok (MailboxService.reopenOldestNotificationAfterRouteEvidence e.daemon.store cfg.recipient
        observation writeReady env.now)) env)
  | .enqueue index =>
    match e.prepared[index]? with
    | none => e
    | some (messageId, attemptId) =>
      { e with prepared := e.prepared.eraseIdx index }.enqueue cfg messageId attemptId
  | .resolve verified =>
    { e with worker := e.worker.map fun worker =>
        { worker with current := worker.current.map (e.resolve cfg verified) } }
  | .pause => { e with paused := true }
  | .resume => { e with paused := false }
  | .stop => { e with paused := true, stopping := true }
  | .work answer =>
    match e.worker with
    | none => e
    | some worker => e.work cfg worker answer
  | .fail =>
    { e with worker := e.worker.map fun worker =>
        match worker.stage with
        | .running _ => { worker with stage := .failed }
        | _ => worker }
  | .cut =>
    if e.stopping then
      { e with worker := e.worker.map fun worker =>
          match worker.stage with
          | .running _ => { worker with stage := .returned }
          | _ => worker }
    else e
  | .loopFails =>
    { e with worker := e.worker.map fun worker =>
        if worker.stage.ofLoop = false then worker
        else if e.stopping ∨ worker.faulted then { worker with stage := .halted }
        else recoverOuterWorker worker }
  | .loopCut =>
    if e.stopping then
      { e with worker := e.worker.map fun worker => { worker with stage := .halted } }
    else e

def run (events : List EngineEvent) : Engine :=
  events.foldl (step cfg) e

/-! ## Careful runs -/

def currentRecord : Option (DeliveryHandle × NotificationRecord) := do
  let worker ← e.worker
  let handle ← worker.current
  let record ← handle.notification.current e.daemon.store
  return (handle, record)

def Careful : EngineEvent → Prop
  | .work (.replace _) => (e.worker.any fun worker => worker.stage == .failed) = true →
      ∀ found ∈ e.currentRecord, found.1.notification.owns found.2 = true →
        found.2.state ≠ .submittedUnverified
  | .cut => e.stopping = true → (e.worker.any fun worker => worker.stage.isRunning) = true →
      ∀ found ∈ e.currentRecord, crossed found.2.state = false
  | _ => True

instance decidableCareful (event : EngineEvent) : Decidable (e.Careful event) := by
  unfold Careful
  split <;> infer_instance

end Engine

end Cyclops
