import Cyclops.Daemon.Idempotency
import Cyclops.Mailbox.Reads

/-!
# After the acceptance boundary

A send or reply is accepted when its row is in the journal.

Results: `accepted_never_refused`, `poisoned_read_refuses`.
-/

namespace Cyclops

open Checked FiniteMap MessageStore MailboxProjection MailboxService Option NotificationRecord

/-! ## Dispositions -/

structure MessageDisposition where
  recipient : RecipientKey
  label : String
  attemptId : Option NotificationAttemptId
  transport : Option NotificationTransport
  notificationStateRaw : Option NotificationState
  notificationState : MessageNotificationState
  quotaState : Option MessageQuotaState
  notificationSettlement : Option MessageNotificationSettlement
  preWriteCause : Option NotificationPreWriteCause
  wakeBlock : Option MessageWakeBlock
  positionAhead : Option Nat

def notificationWakeBlock (record : NotificationRecord) (attentionResolutionPending : Bool) :
    Option MessageWakeBlock :=
  record.wakeBlock.or (if attentionResolutionPending then some .attentionResolutionPending else none)

namespace MailboxProjection

variable (p : MailboxProjection)

def disposition (messageId : MessageId) (recipient : RecipientKey) (label : String) :
    MessageDisposition :=
  let record := p.notification recipient messageId
  let ahead := (p.getPending recipient).filter fun entry =>
    !p.notificationWithdrawnByOperator recipient entry.messageId
  { recipient
    label
    attemptId := record.map attemptId
    transport := record.map transport
    notificationStateRaw := record.map state
    notificationState := (record.map fun r => .ofState r.state).getD .notStarted
    quotaState := record.bind fun r => MessageQuotaState.fromNotification r.state
    notificationSettlement :=
      record.bind fun r => MessageNotificationSettlement.fromNotification r.state
    preWriteCause := record.bind preWriteCause
    wakeBlock := record.bind fun r =>
      notificationWakeBlock r (p.attentionResolutionPending r.attemptId)
    positionAhead := (ahead.findIdx? fun entry => entry.messageId = messageId).filter
      fun position => position < 2 ^ 32 }

def messageDispositions (messageId : MessageId) : Except MailboxError (List MessageDisposition) := do
  let message ← orRefuse (p.getMessage messageId) (.messageNotFound messageId)
  let metadata ← extractMessageMetadata message
  let labels ← presentationLabels metadata.recipients metadata.presentation
  return List.zipWith (p.disposition messageId) metadata.recipients labels.2

end MailboxProjection

variable {row : LedgerLine} {metadata : MessageMetadata} {schedule : Scheduler}

theorem messageDispositions_stored [DigestScheme] {p : MailboxProjection} (hp : Coherent p)
    {mid : MessageId} (stored : p.messages.lookup mid = some row)
    (hda : row.data = some (.metadata metadata)) :
    ∃ dispositions, p.messageDispositions mid = .ok dispositions ∧
      dispositions.map MessageDisposition.recipient = metadata.recipients := by
  obtain ⟨md', replyTo, message⟩ := hp.stored stored
  cases hda.symm.trans message.data
  have hl : row.sentTo.length = metadata.recipients.length :=
    presentationLabels_length message.labels
  refine ⟨.zipWith (p.disposition mid) metadata.recipients row.sentTo, ?_, ?_⟩
  · simp only [messageDispositions, bind_eq_ok, orRefuse_eq_ok,
      extractMessageMetadata_eq_ok]
    exact ⟨row, stored, metadata, message.data, _, message.labels, rfl⟩
  · have hf : (metadata.recipients.zip row.sentTo).map Prod.fst = metadata.recipients :=
      List.map_fst_zip (by omega)
    rw [List.zip, List.map_zipWith] at hf
    rw [List.map_zipWith]
    exact hf

/-! ## Scheduling -/

/-- Why a step of the service failed. A lock is poisoned when a task panicked while it
held it. -/
inductive ServiceError where
  | failure (error : Failure)
  | poisoned
  | notificationSchedule (detail : String)

structure ScheduledHead where
  messageId : MessageId
  attemptId : NotificationAttemptId

/-- What scheduling did for one recipient. -/
inductive RecipientScheduleOutcome where
  | workerOwned (head : ScheduledHead) (observeFirstDisposition : Bool)
  | noWakeNeeded
  | blocked (head : ScheduledHead) (block : MessageWakeBlock)
  | mailboxOnly (head : ScheduledHead)

structure AcceptanceSchedule where
  outcomes : List (RecipientKey × RecipientScheduleOutcome)
  unavailable : List RecipientKey

abbrev Scheduler := RecipientKey → Except ServiceError RecipientScheduleOutcome

def Scheduler.fails (schedule : Scheduler) (recipient : RecipientKey) : Bool :=
  schedule recipient matches .error _

/-- Attempt every recipient without revoking durable acceptance. -/
def scheduleAcceptedNotifications (accepted : AcceptResult) (schedule : Scheduler) :
    AcceptanceSchedule where
  outcomes := accepted.recipientKeys.filterMap fun recipient =>
    match schedule recipient with
    | .ok outcome => some (recipient, outcome)
    | .error _ => none
  unavailable := accepted.recipientKeys.filter schedule.fails

/-! ## The wait for a first durable disposition -/

def hasFirstDurableDisposition (disposition : MessageDisposition) (head : ScheduledHead)
    (requireWake : Bool) : Bool :=
  if disposition.attemptId ≠ some head.attemptId then true
  else if requireWake then
    !(disposition.notificationStateRaw matches
      some .queued | some .gating | some .writing | some .staged | some .submitting)
  else !(disposition.notificationStateRaw matches some .queued | some .gating)

/-- One receive on the event stream. -/
inductive Recv where
  | messagesChanged
  | otherEvent
  | lagged
  | closed

/-- Whether a change is announced among the events received before the deadline. -/
def waitForMessagesChange : List Recv → Bool
  | [] => false
  | .messagesChanged :: _ | .lagged :: _ => true
  | .otherEvent :: rest => waitForMessagesChange rest
  | .closed :: _ => false

structure LockAttempt where
  others : List Operation
  poisoned : Bool

structure Wait where
  late : Bool
  events : List Recv

def Wait.expired (wait : Wait) : Bool :=
  wait.late || !waitForMessagesChange wait.events

def pendingHeads (messageId : MessageId)
    (outcomes : List (RecipientKey × RecipientScheduleOutcome)) :
    List (RecipientKey × ScheduledHead) :=
  outcomes.filterMap fun (recipient, outcome) =>
    match outcome with
    | .workerOwned head true => if head.messageId = messageId then some (recipient, head) else none
    | _ => none

def stillPending (requireWake : Bool) (dispositions : List MessageDisposition)
    (pending : List (RecipientKey × ScheduledHead)) : List (RecipientKey × ScheduledHead) :=
  pending.filter fun (recipient, head) =>
    match dispositions.find? fun disposition => disposition.recipient = recipient with
    | none => true
    | some disposition => !hasFirstDurableDisposition disposition head requireWake

/-! ## Routes -/

structure SlotView where
  attached : Bool
  identity : Option SessionInstanceId
  panes : Option (List TmuxPaneId)

def SlotView.shows (slot : SlotView) (session : SessionInstanceId) (pane : TmuxPaneId) : Bool :=
  slot.attached && slot.identity = some session &&
    match slot.panes with
    | some panes => pane ∈ panes
    | none => false

structure RouteView where
  slots : List SlotView
  poisoned : Bool

/-- The slots from here on, with the route found so far. -/
def routeAmong (session : SessionInstanceId) (pane : TmuxPaneId) (poisoned : Bool) :
    Option TmuxPaneId → List SlotView → Except ServiceError (Option TmuxPaneId)
  | found, [] => .ok found
  | found, slot :: rest =>
    if slot.shows session pane then
      if poisoned then .error .poisoned
      else if found.isSome then .ok none
      else routeAmong session pane poisoned (some pane) rest
    else routeAmong session pane poisoned found rest

/-- Resolve a durable recipient only when its exact session instance is attached. -/
def notificationRoute (view : RouteView) (recipient : RecipientKey) :
    Except ServiceError (Option TmuxPaneId) :=
  match recipient.recipient with
  | .agent session pane => routeAmong session pane view.poisoned none view.slots
  | _ => .ok none

def RouteView.shows (view : RouteView) (recipient : RecipientKey) : Bool :=
  match recipient.recipient with
  | .agent session pane => view.slots.any fun slot => slot.shows session pane
  | _ => false

theorem routeAmong_cases {s : SessionInstanceId} {pane : TmuxPaneId} {poisoned : Bool}
    {ss : List SlotView} {f : Option TmuxPaneId} :
    ((poisoned = true ∧ ss.any (fun slot => slot.shows s pane) = true) ∧
      routeAmong s pane poisoned f ss = .error .poisoned) ∨
    (¬ (poisoned = true ∧ ss.any (fun slot => slot.shows s pane) = true) ∧
      ∃ r, routeAmong s pane poisoned f ss = .ok r) := by
  induction ss generalizing f with
  | nil => simp [routeAmong]
  | cons slot rest ih =>
    unfold routeAmong
    cases hs : slot.shows s pane with
    | false => simpa [hs] using @ih f
    | true =>
      cases poisoned with
      | true => simp [hs]
      | false =>
        cases f with
        | some => simp
        | none => simpa using @ih (some pane)

theorem notificationRoute_cases (view : RouteView) (k : RecipientKey) :
    ((view.poisoned = true ∧ view.shows k = true) ∧ notificationRoute view k = .error .poisoned) ∨
    (¬ (view.poisoned = true ∧ view.shows k = true) ∧ ∃ r, notificationRoute view k = .ok r) := by
  unfold notificationRoute RouteView.shows
  cases k.recipient with
  | agent => exact routeAmong_cases
  | admin => simp
  | headless => simp

/-! ## Receipts and responses -/

structure DeliveryReceipt where
  label : String
  state : DeliveryState
  notificationState : Option MessageNotificationState
  quotaState : Option MessageQuotaState
  notificationSettlement : Option MessageNotificationSettlement
  preWriteCause : Option NotificationPreWriteCause
  wakeBlock : Option MessageWakeBlock
  position : Option Nat
  note : Option String
  pane : Option String

def receiptFromDisposition (disposition : MessageDisposition) (pane : Option String) :
    DeliveryReceipt where
  label := disposition.label
  state := .queued
  notificationState := some disposition.notificationState
  quotaState := disposition.quotaState
  notificationSettlement := disposition.notificationSettlement
  preWriteCause := disposition.preWriteCause
  wakeBlock := disposition.wakeBlock
  position := disposition.positionAhead
  note := if disposition.transport = some .mailbox then some "in mailbox, no pane" else none
  pane

def receiptWithScheduleTruth (disposition : MessageDisposition) (pane : Option String)
    (schedulerStateUnavailable : Bool) : DeliveryReceipt :=
  let receipt := receiptFromDisposition disposition pane
  if schedulerStateUnavailable && receipt.wakeBlock.isNone then
    { receipt with wakeBlock := some .schedulerStateUnavailable }
  else receipt

structure MsgSendResult where
  msgId : String
  threadRoot : MessageId
  seq : Nat
  deliveries : List DeliveryReceipt
  inserted : Bool

def AcceptResult.sendResult (accepted : AcceptResult) (deliveries : List DeliveryReceipt) :
    MsgSendResult where
  msgId := accepted.messageId.text
  threadRoot := accepted.threadRoot
  seq := accepted.seq
  deliveries
  inserted := accepted.inserted

def ServiceError.code : ServiceError → String
  | .notificationSchedule _ => "notification_schedule_failed"
  | .failure (.directory (.unknownRecipient _)) => "no_such_target"
  | .failure (.directory _) => "bad_request"
  | .failure (.mailbox error) =>
    match error with
    | .messageNotFound _ | .entryNotFound _ _ => "no_such_message"
    | .messageNotPending _ => "message_not_pending"
    | .draftEmptyRecipients | .type _ => "bad_request"
    | .replyNotVisible _ _ | .claimantMismatch _ _ _ => "denied"
    | .notificationAttemptUnknown _ => "no_such_alarm"
    | .duplicateIdempotencyKey _ _ _ | .alreadyClaimed _ _ _ | .notificationAttemptMismatch _ _
    | .notificationAttemptClaimLocatorConflict _ | .notificationClearRequiresAttention
    | .notificationRequeueRequiresAttention | .notificationWithdrawalRequiresPreWrite
    | .notificationWithdrawalRecipientMismatch _ _ | .notificationAlreadyResolved _
    | .notificationResolutionAmbiguous _ => "conflict"
    | _ => "mailbox_error"
  | .failure .operatorRequired => "forbidden"
  | .failure _ | .poisoned => "mailbox_error"

/-- The answer on the socket. -/
inductive Response where
  | ok (result : MsgSendResult)
  | err (code : String)

/-- What a client may conclude from an error. -/
inductive Certainty where
  | knownNotSent
  | refused
  | outcomeUnknown
  | streamGap
deriving DecidableEq

/-- What the client makes of an error response. Only the substitute for a response that
did not fit leaves the outcome open. -/
def Response.certainty : Response → Option Certainty
  | .ok _ => none
  | .err code => some (if code = "frame_too_large" then .outcomeUnknown else .refused)

def Response.of : Except ServiceError MsgSendResult → Response
  | .ok result => .ok result
  | .error error => .err error.code

/-! ## The rest of the call -/

structure Aftermath where
  schedule : Scheduler
  reads : List LockAttempt
  waits : List Wait
  route : RecipientKey → RouteView

def Aftermath.Unpoisoned (call : Aftermath) (recipients : List RecipientKey) : Prop :=
  (∀ attempt ∈ call.reads, attempt.poisoned = false) ∧
    ∀ recipient ∈ recipients,
      ¬ ((call.route recipient).poisoned = true ∧ (call.route recipient).shows recipient = true)

def receiptsOf (dispositions : List MessageDisposition) (unavailable : List RecipientKey)
    (route : RecipientKey → RouteView) : Except ServiceError (List DeliveryReceipt) :=
  dispositions.mapM fun disposition => do
    let pane ← notificationRoute (route disposition.recipient) disposition.recipient
    return receiptWithScheduleTruth disposition (pane.map TmuxPaneId.text)
      (disposition.recipient ∈ unavailable)

namespace Daemon

variable [DigestScheme]

def readDispositions (d : Daemon) (messageId : MessageId) (attempt : LockAttempt) :
    Daemon × Except ServiceError (List MessageDisposition) :=
  let d := d.run attempt.others
  (d, if attempt.poisoned then .error .poisoned
    else (d.store.projection.messageDispositions messageId).mapError
      fun error => .failure (.mailbox error))

/-- `observe_first_durable_dispositions_with`. The deadline is only a response bound: the
last read decides. -/
def observe (messageId : MessageId) (requireWake : Bool) :
    Daemon → List (RecipientKey × ScheduledHead) → List LockAttempt → List Wait →
      Option (Except ServiceError (List MessageDisposition))
  | _, _, [], _ => none
  | d, pending, attempt :: rest, waits =>
    match d.readDispositions messageId attempt with
    | (_, .error error) => if rest.isEmpty then some (.error error) else none
    | (d, .ok dispositions) =>
      let pending := stillPending requireWake dispositions pending
      if pending.isEmpty then
        if rest.isEmpty then some (.ok dispositions) else none
      else
        match waits with
        | [] => none
        | wait :: waits =>
          if wait.expired then
            match rest with
            | [last] => some (d.readDispositions messageId last).2
            | _ => none
          else observe messageId requireWake d pending rest waits

def finishAcceptance (d : Daemon) (accepted : AcceptResult) (requireWake : Bool)
    (call : Aftermath) : Option (Except ServiceError MsgSendResult) :=
  let schedule := scheduleAcceptedNotifications accepted call.schedule
  let pending := pendingHeads accepted.messageId schedule.outcomes
  (observe accepted.messageId requireWake d pending call.reads call.waits).map fun observed => do
    let dispositions ← observed
    let deliveries ← receiptsOf dispositions schedule.unavailable call.route
    return accepted.sendResult deliveries

end Daemon

/-- What is accepted: a send or a reply. -/
inductive Submission where
  | send (request : MailboxSend)
  | reply (request : MailboxService.MailboxReply)

namespace Daemon

variable [DigestScheme] (d : Daemon)

def submit (sender : MailboxIdentity) (submission : Submission) (draws : List Uuid) (env : Env) :
    MessageStore × Except Failure AcceptResult :=
  match submission with
  | .send request => d.sendResult sender request draws env
  | .reply request => d.replyResult sender request draws env

def respond (outcome : MessageStore × Except Failure AcceptResult) (requireWake : Bool)
    (call : Aftermath) : Option Response :=
  match outcome.2 with
  | .error error => some (.err (ServiceError.failure error).code)
  | .ok accepted =>
    ({ d with store := outcome.1 }.finishAcceptance accepted requireWake call).map Response.of

end Daemon

/-! ## A journaled submission is accepted -/

section

variable [DigestScheme] {st : MessageStore} {w : WorkspaceId}

structure AcceptResult.Stored (accepted : AcceptResult) (p : MailboxProjection) (row : LedgerLine)
    (metadata : MessageMetadata) : Prop where
  found : p.messages.lookup accepted.messageId = some row
  data : row.data = some (.metadata metadata)
  seq : row.seq = accepted.seq
  recipients : metadata.recipients = accepted.recipientKeys

variable {env : Env} {ok : MailboxProjection → LedgerLine → Prop}

theorem MessageStore.Sound.perform_journaled {α : Type} (h : st.Sound ok w)
    {plan : Except Failure (Plan α)} (hs : st.StampedPlan plan)
    (hj : (st.perform plan env).1.writer.lines ≠ st.writer.lines) :
    ∃ line r, plan = .ok (.append line r) ∧
      Applies false st.projection line (st.perform plan env).1.projection ∧
      (st.perform plan env).2 = orRefuse (r (st.perform plan env).1.projection) .panicked := by
  have hp : st.Performed plan (st.perform plan env) := h.aligned.performed hs
  generalize st.perform plan env = o at hp hj ⊢
  cases hp with
  | answered => exact absurd rfl hj
  | failed hl => exact absurd hl hj
  | applied planned applies => exact ⟨_, _, planned, applies, rfl⟩

theorem acceptCanonicalAt_journaled (h : st.Sound ok w) {mid : MessageId}
    {dr : CanonicalDraft} {ts now : Nat}
    (hj : (st.perform (st.acceptCanonicalAt mid dr ts now) env).1.writer.lines ≠ st.writer.lines) :
    ∃ a row metadata, (st.perform (st.acceptCanonicalAt mid dr ts now) env).2 = .ok a ∧
      a.Stored (st.perform (st.acceptCanonicalAt mid dr ts now) env).1.projection row metadata := by
  obtain ⟨line, result, hp, applies, answer⟩ :=
    h.perform_journaled stampedPlan_acceptCanonicalAt hj
  obtain ⟨digest, root, labels, -, -, -, hl, rfl⟩ := acceptCanonicalAt_append hp
  have hda : line.data = some (.metadata (st.draftMetadata dr root digest)) := by
    rw [hl]
    rfl
  obtain ⟨s, hid, found, -⟩ := applies.stores h.reachable.coherent hda
  have hs : s = mid := by
    rw [hl] at hid
    cases s
    cases mid
    cases hid
    rfl
  exact ⟨_, line, _, answer, hs ▸ found, hda, rfl, rfl⟩

theorem Daemon.submit_journaled {d : Daemon} (h : d.store.Sound Emits w)
    {sn : MailboxIdentity} {s : Submission} {draws : List Uuid}
    (hj : (d.submit sn s draws env).1.writer.lines ≠ d.store.writer.lines) :
    ∃ accepted row metadata, (d.submit sn s draws env).2 = .ok accepted ∧
      accepted.Stored (d.submit sn s draws env).1.projection row metadata := by
  cases s with
  | send r =>
    simp only [submit, sendResult] at hj ⊢
    cases hp : send d.directory d.store sn r draws env.now with
    | error => exact absurd rfl (hp ▸ hj)
    | ok =>
      have ha := hp
      simp only [send, bind_eq_ok] at ha
      obtain ⟨_, -, _, -, messageId, -, ha⟩ := ha
      rw [hp, ← ha] at hj
      rw [← ha]
      exact acceptCanonicalAt_journaled h hj
  | reply r =>
    simp only [submit, replyResult] at hj ⊢
    cases hp : replyWithSummary d.directory d.store sn r draws env.now with
    | error error => exact absurd rfl (hp ▸ hj)
    | ok plan =>
      obtain ⟨_, _, _, _, -, -, -, -, ha⟩ := replyWithSummary_eq_ok.mp hp
      rw [hp, ← ha] at hj
      rw [← ha]
      exact acceptCanonicalAt_journaled h hj

end

/-! ## What the call answers -/

namespace Daemon

variable [DigestScheme] {d : Daemon} {ws : WorkspaceId} {m : MessageId}
  {row : LedgerLine} {md : MessageMetadata}

structure Holds (workspaceId : WorkspaceId) (d : Daemon) (messageId : MessageId)
    (row : LedgerLine) (metadata : MessageMetadata) : Prop where
  sound : d.store.Sound Emits workspaceId
  found : d.store.projection.messages.lookup messageId = some row
  data : row.data = some (.metadata metadata)

theorem Holds.run (h : d.Holds ws m row md) (os : List Operation) :
    (d.run os).Holds ws m row md := by
  obtain ⟨hs, ha⟩ := run_advances h.sound os
  exact ⟨hs, ha.message h.sound.reachable h.found, h.data⟩

theorem Holds.readDispositions (h : d.Holds ws m row md) (attempt : LockAttempt) :
    (attempt.poisoned = true ∧
      d.readDispositions m attempt = (d.run attempt.others, .error .poisoned)) ∨
    (attempt.poisoned = false ∧ ∃ dispositions,
      d.readDispositions m attempt = (d.run attempt.others, .ok dispositions) ∧
      (d.run attempt.others).store.projection.messageDispositions m = .ok dispositions) := by
  cases poisoned : attempt.poisoned with
  | true => exact .inl ⟨rfl, by simp [Daemon.readDispositions, poisoned]⟩
  | false =>
    have hl := h.run attempt.others
    obtain ⟨dispositions, read, -⟩ :=
      messageDispositions_stored hl.sound.reachable.coherent hl.found hl.data
    exact .inr ⟨rfl, dispositions, by simp [Daemon.readDispositions, poisoned, read, Except.mapError],
      read⟩

/-- How the wait for the first dispositions can end. -/
inductive Observed (d : Daemon) (messageId : MessageId) (reads : List LockAttempt) :
    Except ServiceError (List MessageDisposition) → Prop
  | poisoned (met : ∃ attempt ∈ reads, attempt.poisoned = true) :
      Observed d messageId reads (.error .poisoned)
  | read {dispositions : List MessageDisposition}
      (clean : ∀ attempt ∈ reads, attempt.poisoned = false)
      (last : (d.run (reads.flatMap LockAttempt.others)).store.projection.messageDispositions
        messageId = .ok dispositions) :
      Observed d messageId reads (.ok dispositions)

variable {ans : Except ServiceError (List MessageDisposition)} {a : LockAttempt}

theorem Observed.cons {rest : List LockAttempt} (hc : a.poisoned = false)
    (h : Observed (d.run a.others) m rest ans) :
    Observed d m (a :: rest) ans := by
  cases h with
  | poisoned hm =>
    obtain ⟨poisoned, mem, hm⟩ := hm
    exact .poisoned ⟨poisoned, List.mem_cons_of_mem _ mem, hm⟩
  | read ha hl =>
    refine .read (List.forall_mem_cons.mpr ⟨hc, ha⟩) ?_
    simpa [run] using hl

theorem Observed.single (h : d.Holds ws m row md) (hr : (d.readDispositions m a).2 = ans) :
    Observed d m [a] ans := by
  obtain ⟨hp, hm⟩ | ⟨hc, dispositions, got, hl⟩ := h.readDispositions a
  · rw [hm] at hr
    exact hr ▸ .poisoned ⟨a, List.mem_singleton_self _, hp⟩
  · rw [got] at hr
    exact hr ▸ .read (by simpa using hc) (by simpa using hl)

/-- The induction is on the reads. -/
theorem observe_spec {r : Bool} {reads : List LockAttempt} {w : List Wait}
    {pending : List (RecipientKey × ScheduledHead)} (h : d.Holds ws m row md)
    (ha : observe m r d pending reads w = some ans) :
    Observed d m reads ans := by
  induction reads generalizing d pending w with
  | nil => simp [observe] at ha
  | cons a rest ih =>
    obtain ⟨hp, hm⟩ | ⟨hc, dispositions, got, last⟩ := h.readDispositions a
    · simp only [observe, hm] at ha
      split at ha
      · cases ha
        exact .poisoned ⟨a, List.mem_cons_self, hp⟩
      · cases ha
    · simp only [observe, got] at ha
      split at ha
      · split at ha
        · next he =>
          cases ha
          cases List.isEmpty_iff.mp he
          exact .read (by simpa using hc) (by simpa using last)
        · cases ha
      · cases w with
        | nil => cases ha
        | cons =>
          dsimp only at ha
          split at ha
          · match rest with
            | [] | _ :: _ :: _ => cases ha
            | [f] =>
              cases ha
              exact (Observed.single (h.run a.others) rfl).cons hc
          · exact (ih (h.run a.others) ha).cons hc

/-- The first read answers, or the first wait does, or the wait goes on. -/
theorem observe_first (r : Bool) (attempts : Nat → LockAttempt) (waits : Nat → Wait)
    (d : Daemon) (pending : List (RecipientKey × ScheduledHead)) :
    (∃ k j, (observe m r d pending ((List.range k).map attempts)
      ((List.range j).map waits)).isSome = true) ∨
    ((waits 0).expired = false ∧ ∃ later p', ∀ reads rest,
      observe m r d pending (attempts 0 :: reads) (waits 0 :: rest)
        = observe m r later p' reads rest) := by
  cases read : d.readDispositions m (attempts 0) with
  | mk later res =>
    cases res with
    | error => exact .inl ⟨1, 0, by simp [observe, read]⟩
    | ok dispositions =>
      cases settled : (stillPending r dispositions pending).isEmpty with
      | true => exact .inl ⟨1, 0, by simp [observe, read, settled]⟩
      | false =>
        cases he : (waits 0).expired with
        | true =>
          exact .inl ⟨2, 1, by simp [List.range_succ_eq_map, observe, read, settled, he]⟩
        | false =>
          exact .inr ⟨rfl, later, _, fun reads rest => by
            simp [observe, read, settled, he]; rfl⟩

/-- The wait ends. The induction is on the first wait that is cut short. -/
theorem observe_answers (r : Bool) {a : Nat → LockAttempt} {w : Nat → Wait}
    {n : Nat} (he : (w n).expired = true) (d : Daemon)
    (pending : List (RecipientKey × ScheduledHead)) :
    ∃ k j, (observe m r d pending ((List.range k).map a) ((List.range j).map w)).isSome = true := by
  induction n generalizing d pending a w with
  | zero =>
    obtain ha | ⟨ho, -⟩ := @observe_first _ m r a w d pending
    · exact ha
    · simp [he] at ho
  | succ n ih =>
    obtain ha | ⟨-, later, pending', next⟩ :=
      @observe_first _ m r a w d pending
    · exact ha
    · obtain ⟨k, j, ha⟩ :=
        @ih (a ∘ .succ) (w ∘ .succ) he later pending'
      refine ⟨k + 1, j + 1, ?_⟩
      simpa [List.range_succ_eq_map, next] using ha

end Daemon

/-! ## The receipts -/

/-- The receipt of a disposition. A failed schedule shows as a wake block, and as nothing
else. -/
structure DeliveryReceipt.Truthful (schedule : Scheduler) (disposition : MessageDisposition)
    (receipt : DeliveryReceipt) : Prop where
  wakeBlock : receipt.wakeBlock = disposition.wakeBlock.or
    (if schedule.fails disposition.recipient then some .schedulerStateUnavailable else none)
  rest : { receipt with wakeBlock := disposition.wakeBlock }
    = receiptFromDisposition disposition receipt.pane

theorem receiptWithScheduleTruth_truthful {disposition : MessageDisposition}
    {pane : Option String} :
    (receiptWithScheduleTruth disposition pane (schedule.fails disposition.recipient)).Truthful
      schedule disposition := by
  unfold receiptWithScheduleTruth
  cases hf : schedule.fails disposition.recipient with
  | false => exact ⟨by simp [hf, receiptFromDisposition], rfl⟩
  | true =>
    cases hb : disposition.wakeBlock with
    | none =>
      exact ⟨by simp [hf, receiptFromDisposition, hb], by simp [receiptFromDisposition, hb]⟩
    | some =>
      exact ⟨by simp [receiptFromDisposition, hb], by simp [receiptFromDisposition, hb]⟩

theorem receiptsOf_cases {keys : List RecipientKey} {r : RecipientKey → RouteView}
    {dispositions : List MessageDisposition}
    (ha : ∀ disposition ∈ dispositions, disposition.recipient ∈ keys) :
    ((∃ k ∈ dispositions.map MessageDisposition.recipient,
        (r k).poisoned = true ∧ (r k).shows k = true) ∧
      receiptsOf dispositions (keys.filter schedule.fails) r = .error .poisoned) ∨
    ((∀ k ∈ dispositions.map MessageDisposition.recipient,
        ¬ ((r k).poisoned = true ∧ (r k).shows k = true)) ∧
      ∃ receipts, receiptsOf dispositions (keys.filter schedule.fails) r = .ok receipts ∧
        List.Forall₂ (DeliveryReceipt.Truthful schedule) dispositions receipts) := by
  induction dispositions with
  | nil => exact .inr ⟨by simp, [], rfl, .nil⟩
  | cons disposition rest ih =>
    have hf : (decide (disposition.recipient ∈ keys.filter schedule.fails))
        = schedule.fails disposition.recipient := by
      simp [ha disposition List.mem_cons_self]
    simp only [receiptsOf, List.mapM_cons, hf] at ih ⊢
    obtain ⟨hm, he⟩ | ⟨hc, pane, hfo⟩ :=
      notificationRoute_cases (r disposition.recipient) disposition.recipient
    · exact .inl ⟨⟨_, by simp, hm⟩, by rw [he]; rfl⟩
    · rw [hfo]
      obtain ⟨⟨k, mem, hm⟩, he⟩ | ⟨all, receipts, built, ht⟩ :=
        ih fun l mem => ha l (List.mem_cons_of_mem _ mem)
      · exact .inl ⟨⟨k, List.mem_cons_of_mem _ mem, hm⟩, by
          simp only [he]; rfl⟩
      · refine .inr ⟨List.forall_mem_cons.mpr ⟨hc, all⟩, _, ?_, .cons
          (@receiptWithScheduleTruth_truthful schedule disposition (pane.map TmuxPaneId.text))
          ht⟩
        simp only [built]
        rfl

/-! ## The answer -/

def Response.Confirms (response : Response) (accepted : AcceptResult) (schedule : Scheduler)
    (dispositions : List MessageDisposition) : Prop :=
  ∃ result, response = .ok result ∧ result.msgId = accepted.messageId.text ∧
    result.seq = accepted.seq ∧
    List.Forall₂ (DeliveryReceipt.Truthful schedule) dispositions result.deliveries

def Aftermath.reached [DigestScheme] (call : Aftermath) (d : Daemon) : Daemon :=
  d.run (call.reads.flatMap LockAttempt.others)

/-- How the call of an accepted submission can end. -/
inductive Answered [DigestScheme] (d : Daemon) (accepted : AcceptResult) (call : Aftermath) :
    Response → Prop
  | refuses (met : ¬ call.Unpoisoned accepted.recipientKeys) :
      Answered d accepted call (.err "mailbox_error")
  | confirms {response : Response} {dispositions : List MessageDisposition}
      (clean : call.Unpoisoned accepted.recipientKeys)
      (read : (call.reached d).store.projection.messageDispositions accepted.messageId
        = .ok dispositions)
      (confirmed : response.Confirms accepted call.schedule dispositions) :
      Answered d accepted call response

theorem Daemon.Holds.finishAcceptance [DigestScheme] {d : Daemon} {wi : WorkspaceId}
    {accepted : AcceptResult} {r : Bool} {call : Aftermath}
    {answer : Except ServiceError MsgSendResult}
    (h : d.Holds wi accepted.messageId row metadata)
    (hr : metadata.recipients = accepted.recipientKeys)
    (ha : d.finishAcceptance accepted r call = some answer) :
    Answered d accepted call (Response.of answer) := by
  simp only [Daemon.finishAcceptance, map_eq_some_iff] at ha
  obtain ⟨o, ho, rfl⟩ := ha
  cases observe_spec h ho with
  | poisoned hm =>
    refine .refuses fun hc => ?_
    obtain ⟨attempt, mem, poisoned⟩ := hm
    simp [hc.1 attempt mem] at poisoned
  | @read dispositions hc hla =>
    have hl := h.run (call.reads.flatMap LockAttempt.others)
    obtain ⟨d', read, hk⟩ :=
      messageDispositions_stored hl.sound.reachable.coherent hl.found hl.data
    cases hla.symm.trans read
    rw [hr] at hk
    have had : ∀ disposition ∈ dispositions,
        disposition.recipient ∈ accepted.recipientKeys := fun disposition mem =>
      hk ▸ List.mem_map_of_mem mem
    change Answered d accepted call (.of do
      let deliveries ← receiptsOf dispositions
        (accepted.recipientKeys.filter call.schedule.fails) call.route
      return accepted.sendResult deliveries)
    obtain ⟨⟨k, mem, hm⟩, he⟩ | ⟨hro, receipts, built, ht⟩ :=
      @receiptsOf_cases call.schedule accepted.recipientKeys call.route dispositions had
    · rw [he]
      exact .refuses fun hc => hc.2 k (hk ▸ mem) hm
    · rw [built]
      exact .confirms ⟨hc, fun k mem => hro k (hk ▸ mem)⟩ hla ⟨_, rfl, rfl, rfl, ht⟩

namespace Daemon

variable [DigestScheme]

/-- Whatever the call of a stored submission meets, it is answered, and with the message exactly
when no lock the call takes is poisoned. -/
theorem accepted_never_refused (workspaceId : WorkspaceId) (bootId : String)
    (ops : List Operation) (sender : MailboxIdentity) (submission : Submission)
    (requireWake : Bool) (draws : List Uuid) (env : Env)
    (journaled : (((start workspaceId bootId).run ops).submit sender submission draws env).1.writer.lines
      ≠ ((start workspaceId bootId).run ops).store.writer.lines) :
    let d := (start workspaceId bootId).run ops
    let outcome := d.submit sender submission draws env
    ∃ accepted row metadata, outcome.2 = .ok accepted ∧
      accepted.Stored outcome.1.projection row metadata ∧
      (∀ schedule attempts waits route, (∃ n, (waits n : Wait).expired = true) → ∃ k j,
        (d.respond outcome requireWake
          ⟨schedule, (List.range k).map attempts, (List.range j).map waits, route⟩).isSome = true) ∧
      ∀ call response, d.respond outcome requireWake call = some response →
        ((∃ dispositions,
            (call.reached { d with store := outcome.1 }).store.projection.messageDispositions
              accepted.messageId = .ok dispositions ∧
            response.Confirms accepted call.schedule dispositions) ↔
          call.Unpoisoned accepted.recipientKeys) ∧
        (response.certainty = some .refused ↔ ¬ call.Unpoisoned accepted.recipientKeys) := by
  intro d outcome
  have hs := sound_run workspaceId bootId ops
  obtain ⟨accepted, row, metadata, answer, stored⟩ := submit_journaled hs journaled
  have holds : Holds workspaceId { d with store := outcome.1 } accepted.messageId row metadata := by
    refine ⟨?_, stored.found, stored.data⟩
    have step : ∃ op, (d.step op).store = outcome.1 := by
      cases submission with
      | send r => exact ⟨.send sender r draws env, step_send _ _ _ _ _⟩
      | reply r => exact ⟨.reply sender r draws env, step_reply _ _ _ _ _⟩
    obtain ⟨op, hst⟩ := step
    exact hst ▸ (run_advances hs [op]).1
  refine ⟨accepted, row, metadata, answer, stored, fun schedule attempts waits route he => ?_,
    fun call response hr => ?_⟩
  · obtain ⟨n, he⟩ := he
    obtain ⟨k, j, ha⟩ := @observe_answers _ accepted.messageId requireWake attempts waits n he
      { d with store := outcome.1 } (pendingHeads accepted.messageId
        (scheduleAcceptedNotifications accepted schedule).outcomes)
    exact ⟨k, j, by simpa [respond, show outcome.2 = .ok accepted from answer, finishAcceptance]
      using ha⟩
  · simp only [respond, show outcome.2 = .ok accepted from answer, map_eq_some_iff] at hr
    obtain ⟨f, hf, rfl⟩ := hr
    have ha := holds.finishAcceptance stored.recipients hf
    generalize Response.of f = response at ha ⊢
    cases ha with
    | refuses hm =>
      refine ⟨⟨fun hc => ?_, fun hcl => absurd hcl hm⟩, fun _ => hm, fun _ => rfl⟩
      obtain ⟨_, _, result, ok, _⟩ := hc
      cases ok
    | confirms hcl read hc =>
      refine ⟨⟨fun _ => hcl, fun _ => ⟨_, read, hc⟩⟩, fun hre => ?_, fun hm => absurd hcl hm⟩
      obtain ⟨result, ok, -⟩ := hc
      rw [ok] at hre
      cases hre

end Daemon

def routedOps : List Operation :=
  [.replaceDirectory [sampleWorker]]

def unkeyedTask : Submission :=
  .send ⟨["worker"], none, "task", none, "one", false, none, none, false⟩

def quietCall (poisoned : Bool) : Aftermath where
  schedule := fun _ => .ok .noWakeNeeded
  reads := [⟨[], poisoned⟩]
  waits := []
  route := fun _ => ⟨[], false⟩

def routedDaemon : Daemon :=
  letI := constantDigests
  (Daemon.start sampleWorkspace "boot").run routedOps

theorem unkeyed_task_confirmed :
    letI := constantDigests
    let outcome := routedDaemon.submit sampleAdmin unkeyedTask [sampleDraw] ⟨1, .written⟩
    ∃ accepted response, outcome.2 = .ok accepted ∧
      routedDaemon.respond outcome false (quietCall false) = some response ∧
      response.certainty ≠ some .refused := by
  let := constantDigests
  obtain ⟨accepted, -, -, answer, -, -, ha⟩ := Daemon.accepted_never_refused sampleWorkspace
    "boot" routedOps sampleAdmin unkeyedTask false [sampleDraw] ⟨1, .written⟩ (by decide)
  have hc : (quietCall false).Unpoisoned accepted.recipientKeys :=
    ⟨by simp [quietCall], by simp [quietCall]⟩
  obtain ⟨response, responded⟩ : ∃ response, routedDaemon.respond
      (routedDaemon.submit sampleAdmin unkeyedTask [sampleDraw] ⟨1, .written⟩) false
      (quietCall false) = some response :=
    isSome_iff_exists.mp (by decide)
  exact ⟨accepted, response, answer, responded, fun hr =>
    (ha (quietCall false) response responded).2.mp hr hc⟩

/-- The task is in the journal, and the sender is told that it was refused. -/
theorem poisoned_read_refuses :
    letI := constantDigests
    let outcome := routedDaemon.submit sampleAdmin unkeyedTask [sampleDraw] ⟨1, .written⟩
    outcome.1.writer.lines ≠ routedDaemon.store.writer.lines ∧
      (outcome.1.projection.getMessage sampleMessage).isSome = true ∧
      (routedDaemon.respond outcome false (quietCall true)).bind Response.certainty
        = some .refused := by
  let := constantDigests
  exact ⟨by decide, by decide, by decide⟩

end Cyclops
