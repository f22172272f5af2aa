import Cyclops.Mailbox.Commit

/-!
# What an accepted row has checked

One inversion of the validators.
-/

namespace Cyclops

open Checked FiniteMap MailboxProjection List Option NotificationRequeue

variable {p : MailboxProjection} {line : LedgerLine}

/-! ## Small facts -/

theorem MessageId.text_of_new {v : String} {id : MessageId}
    (h : MessageId.new v = .ok id) : v = id.text := by
  unfold MessageId.new at h
  split at h
  · cases h; rfl
  · cases h

variable {metadata : MessageMetadata} {seen ks : List RecipientKey}
  {current r : NotificationRecord} {s : RecipientKey} {t : MessageId}
  {rv : Nat}

theorem extractMessageMetadata_eq_ok :
    extractMessageMetadata line = .ok metadata ↔ line.data = some (.metadata metadata) := by
  unfold extractMessageMetadata
  split
  · next data h =>
    rw [h]
    exact ⟨fun h' => by cases h'; rfl, fun h' => by cases h'; rfl⟩
  · next h => exact ⟨fun h' => (nomatch h'), fun h' => absurd h' (h metadata)⟩

variable {u : Unit} {k : RecipientKey} {mid : MessageId}
  {requeues : List NotificationRequeue}

@[simp] theorem checkRecordVersion_eq_ok {f : Nat} :
    checkRecordVersion f = .ok u ↔ f = canonicalRecordVersion := by
  simp [checkRecordVersion]

@[simp] theorem checkWorkspace_eq_ok {f : WorkspaceId} :
    p.checkWorkspace f = .ok u ↔ f = p.workspaceId := by
  simp [checkWorkspace]

theorem checkRecipients_ok {w : WorkspaceId} {d : RecipientKey → MailboxError} :
    checkRecipients w d seen ks = .ok u ↔ (∀ r ∈ ks, r.workspaceId = w ∧ r ∉ seen) ∧ ks.Nodup := by
  induction ks generalizing seen with
  | nil => simp [checkRecipients]
  | cons r rest ih =>
    simp only [checkRecipients, refuseIf_bind_eq_ok, ih, nodup_cons,
      not_not, mem_cons, not_or, forall_eq_or_imp]
    constructor
    · rintro ⟨hw, hs, hre, hnd⟩
      exact ⟨⟨⟨hw, hs⟩, fun a ha => ⟨(hre a ha).1, (hre a ha).2.2⟩⟩,
        fun hr => (hre r hr).2.1 rfl, hnd⟩
    · rintro ⟨⟨⟨hw, hs⟩, hre⟩, hr, hnd⟩
      exact ⟨hw, hs, fun a ha => ⟨(hre a ha).1, fun h => hr (h ▸ ha), (hre a ha).2⟩, hnd⟩

theorem requirePendingEntry_eq_ok : p.requirePendingEntry k mid = .ok u ↔
      p.entryIsPending k mid = true := by
  unfold requirePendingEntry entryIsPending
  rw [orRefuse_bind_eq_ok]
  cases p.getEntry k mid <;> simp

theorem currentAttempt_eq_ok {attempt : AttemptRef} {missing : MailboxError} :
    p.currentAttempt attempt missing = .ok current ↔
      p.notifications.lookup (attempt.recipient, attempt.messageId) = some current ∧
        current.attemptId = attempt.attemptId := by
  unfold currentAttempt
  simp only [orRefuse_bind_eq_ok, refuseIf_bind_eq_ok, pure_eq_ok, not_not]
  constructor
  · rintro ⟨a, ha, hid, rfl⟩
    exact ⟨ha, hid⟩
  · rintro ⟨ha, hid⟩
    exact ⟨current, ha, hid, rfl⟩

theorem requireClaimable_ok (h : p.requireClaimable k mid = .ok u) :
    p.entryIsPending k mid = true := by
  simp only [requireClaimable, orRefuse_bind_eq_ok] at h
  obtain ⟨e, he, h⟩ := h
  rw [entryIsPending, he]
  split at h
  · next hs => simp only [hs]; rfl
  · cases h
  · cases h
  · cases h

theorem needsAckTimeout_state (h : r.needsClaimedAckTimeoutReconciliation = true) :
    r.state = .attentionRequired := by
  simp only [NotificationRecord.needsClaimedAckTimeoutReconciliation, Bool.and_eq_true,
    beq_iff_eq] at h
  exact h.1.1.1.1

theorem settledByClaim_cases {st : NotificationState} {transport : NotificationTransport}
    (h : st.settledByClaim transport ≠ st) :
    st.settledByClaim transport = .withdrawn ∨ st.settledByClaim transport = .notified := by
  cases st <;> cases transport <;> simp_all [NotificationState.settledByClaim]

theorem settledByClaim_idem (st : NotificationState) (transport : NotificationTransport) :
    (st.settledByClaim transport).settledByClaim transport = st.settledByClaim transport := by
  cases st <;> cases transport <;> rfl

theorem claimSettlement_eq_none (h : p.claimSettlement line k mid = none)
    (held : p.notifications.lookup (k, mid) = some current) :
    current.state.settledByClaim current.transport = current.state := by
  simp only [claimSettlement, held, bind_eq_bind, bind_some] at h
  split at h
  · next hs => exact hs
  · cases h

theorem claimSettlement_eq_some {update : NotificationProjectionUpdate}
    (h : p.claimSettlement line k mid = some update) :
    ∃ current, p.notifications.lookup (k, mid) = some current ∧
      current.state.settledByClaim current.transport ≠ current.state ∧
      update = ⟨(k, mid), settledRecord line current⟩ := by
  simp only [claimSettlement, bind_eq_bind, bind_eq_some_iff] at h
  obtain ⟨current, hh, h⟩ := h
  split at h
  · cases h
  · next hne =>
    cases h
    exact ⟨current, hh, hne, rfl⟩

theorem supersessionThreadRoot_eq_ok {root : Option MessageId} :
    p.supersessionThreadRoot s ks (some t) = .ok root ↔ ∃ k message metadata, ks = [k] ∧
        p.messages.lookup t = some message ∧ message.data = some (.metadata metadata) ∧
        metadata.sender = s ∧ metadata.recipients = [k] ∧
        p.entryIsPending k t = true ∧
        p.supersessionNotificationIsPreWrite k t = true ∧
        root = some metadata.threadRoot := by
  unfold supersessionThreadRoot
  split
  · next h => cases h
  · next t' h =>
    cases h
    split
    · next k =>
      simp only [bind_eq_ok, orRefuse_eq_ok, extractMessageMetadata_eq_ok, refuseIf_eq_ok,
        exists_const, pure_eq_ok, not_or, not_not, Bool.not_eq_false]
      constructor
      · rintro ⟨message, hm, metadata, hd, ⟨hs, hr⟩, entry, he, hp, hpr, rfl⟩
        refine ⟨k, message, metadata, rfl, hm, hd, hs, hr, ?_, hpr, rfl⟩
        rw [entryIsPending, he]
        exact hp
      · rintro ⟨_, message, metadata, hre, hm, hd, hs, hr, hp, hpr, rfl⟩
        cases hre
        rw [entryIsPending] at hp
        split at hp
        · next entry he =>
          exact ⟨message, hm, metadata, hd, ⟨hs, hr⟩, entry, he, hp, hpr, rfl⟩
        · cases hp
    · next hn =>
      constructor
      · rintro ⟨⟩
      · rintro ⟨k, _, _, h, -⟩
        exact absurd h (hn k)

/-! ## Message rows -/

structure MessageAccepted [DigestScheme] (p : MailboxProjection) (line : LedgerLine)
    (messageId : MessageId) (metadata : MessageMetadata) (replyTo : Option MessageId) : Prop where
  kind : line.kind = .msg ∨ line.kind = .fyi
  id_text : line.id = messageId.text
  fresh : messageId ∉ p.messages
  data : line.data = some (.metadata metadata)
  version : metadata.recordVersion = canonicalRecordVersion
  workspace : metadata.workspaceId = p.workspaceId
  sender_workspace : metadata.sender.workspaceId = p.workspaceId
  nonempty : metadata.recipients ≠ []
  labels : presentationLabels metadata.recipients metadata.presentation =
    .ok (line.sentFrom, line.sentTo)
  recipients_workspace : ∀ r ∈ metadata.recipients, r.workspaceId = p.workspaceId
  recipients_nodup : metadata.recipients.Nodup
  reply : optionalMessageId line.replyTo = .ok replyTo
  exclusive : ¬ (replyTo.isSome = true ∧ metadata.supersedes.isSome = true)
  threadRoot : p.expectedThreadRoot line messageId metadata replyTo = .ok metadata.threadRoot
  digest : metadata.requestDigest =
    RequestDigest.compute line.kind metadata.sender metadata.recipients
      ⟨line.subject, metadata.summary, line.body⟩ replyTo metadata.supersedes
  unusedKey : ∀ key, metadata.clientKey = some key →
    p.idempotencyIndex.lookup (metadata.sender, key) = none

theorem MessageAccepted.superseding [DigestScheme] {rt : Option MessageId}
    (h : MessageAccepted p line mid metadata rt)
    (ht : metadata.supersedes = some t) :
    ∃ k, metadata.recipients = [k] ∧ p.entryIsPending k t = true ∧
      p.supersessionNotificationIsPreWrite k t = true := by
  have hre : rt = none := by
    have := h.exclusive
    rw [ht] at this
    simpa using this
  have hro := h.threadRoot
  rw [hre, expectedThreadRoot, ht, bind_eq_ok] at hro
  obtain ⟨root, hro, -⟩ := hro
  obtain ⟨r, _, _, hr, -, -, -, -, hp, hpr, -⟩ := supersessionThreadRoot_eq_ok.mp hro
  exact ⟨r, hr, hp, hpr⟩

theorem checkUnusedClientKey_eq_ok {c : Option String} : p.checkUnusedClientKey s c = .ok u ↔
      ∀ key, c = some key → p.idempotencyIndex.lookup (s, key) = none := by
  unfold checkUnusedClientKey
  cases c with
  | none => simp
  | some key => cases h : p.idempotencyIndex.lookup (s, key) <;> simp [h]

variable {m : PreparedMutation}

theorem prepareMessage_eq_ok [DigestScheme] (hk : line.kind = .msg ∨ line.kind = .fyi)
    (h : p.prepareMessage line = .ok m) :
    ∃ mid metadata replyTo, MessageAccepted p line mid metadata replyTo ∧
      m = .message mid metadata (p.supersededNotification line metadata) := by
  simp only [prepareMessage, bind_eq_ok, refuseIf_eq_ok, exists_const,
    liftType_eq_ok, extractMessageMetadata_eq_ok, checkRecordVersion_eq_ok, checkWorkspace_eq_ok,
    checkRecipients_ok, checkUnusedClientKey_eq_ok, pure_eq_ok, not_not] at h
  obtain ⟨mid, hid, hf, metadata, hda, hv, hws, hs, hne, labels, hl,
    hfrom, hto, ⟨hre, hn⟩, replyTo, hreply, hexclusive, root, hroot, hrooteq, hdigest,
    hkey, rfl⟩ := h
  refine ⟨mid, metadata, replyTo, ?_, rfl⟩
  exact {
    kind := hk, id_text := MessageId.text_of_new hid, fresh := hf, data := hda
    version := hv, workspace := hws, sender_workspace := hs, nonempty := hne
    labels := by rw [hl, hfrom, hto]
    recipients_workspace := fun r hr => (hre r hr).1
    recipients_nodup := hn, reply := hreply, exclusive := hexclusive
    threadRoot := by rw [hroot, hrooteq]
    digest := hdigest, unusedKey := hkey }

/-! ## Notification rows -/

structure Addressed (p : MailboxProjection) (messageId : MessageId) (recipient : RecipientKey) :
    Prop where
  workspace : recipient.workspaceId = p.workspaceId
  agent : recipient.isAdmin = false
  stored : messageId ∈ p.messages
  filed : p.getEntry recipient messageId ≠ none

theorem addressed_of_envelope (h : p.validateNotificationEnvelope line rv mid k = .ok u) :
    Addressed p mid k := by
  simp only [validateNotificationEnvelope, bind_eq_ok, refuseIf_eq_ok,
    exists_const, checkRecordVersion_eq_ok, checkWorkspace_eq_ok, not_not,
    Bool.not_eq_true] at h
  obtain ⟨-, hws, ha, -, -, -, -, hs, hf⟩ := h
  exact ⟨hws, ha, hs, hf⟩

theorem transitionAllowed_live {next : NotificationState} {c : Option NotificationPreWriteCause} :
    notificationTransitionAllowed r next c false = true ↔
      r.state.canTransitionTo next = true ∨ r.state = .writing ∧ next = .blockedPreWrite ∧
          c = some .pasteCommandUnwritten := by
  simp only [notificationTransitionAllowed, Bool.false_and, Bool.or_false, Bool.or_eq_true,
    Bool.and_eq_true, beq_iff_eq, and_assoc]

structure TransitionChecked (fact : NotificationTransition) (replaying : Bool)
    (current : Option NotificationRecord) : Prop where
  edge : checkTransitionEdge fact replaying current = .ok ()
  binding : checkTransitionBinding fact = .ok ()
  transport : checkTransitionTransport fact = .ok ()
  cause : checkTransitionCause fact replaying current = .ok ()
  evidence : checkPreWriteEvidence fact = .ok ()

namespace TransitionChecked

variable {fact : NotificationTransition} {rp : Bool} {c : NotificationRecord}

section

variable (h : TransitionChecked fact rp (some c))

include h

theorem edge_iff : c.attemptId = fact.attemptId ∧
      ¬ (c.state = .blockedPreWrite ∧ fact.state = .gating ∧ 1 ≤ c.preWriteReopenCount) ∧
      ¬ (fact.preWriteCause = some .pasteCommandUnwritten ∧
        ¬ (c.state = .writing ∧ fact.state = .blockedPreWrite)) ∧
      notificationTransitionAllowed c fact.state fact.preWriteCause rp = true ∧
      ¬ (c.state = .queued ∧ fact.state = .notified ∧ fact.transport ≠ some .mailbox) ∧
      ¬ (fact.isMailboxClose = true ∧ c.state ≠ .queued) := by
  have he := h.edge
  simp only [checkTransitionEdge, bind_eq_ok, refuseIf_eq_ok, exists_const, Bool.not_eq_false, not_not] at he
  exact he

theorem same : c.attemptId = fact.attemptId :=
  h.edge_iff.1

theorem allowed : notificationTransitionAllowed c fact.state fact.preWriteCause rp = true :=
  h.edge_iff.2.2.2.1

theorem bound {b : NotificationBinding} (hb : fact.binding = some b) :
    fact.state = .writing ∧ b.recipient = fact.recipient := by
  have hc := h.binding
  unfold checkTransitionBinding at hc
  split at hc
  · next hw =>
    simp only [bind_eq_ok, orRefuse_eq_ok, refuseIf_eq_ok, not_not] at hc
    obtain ⟨o, ho, hr⟩ := hc
    rw [hb, some.injEq] at ho
    exact ⟨hw.1, ho ▸ hr⟩
  · rw [refuseIf_eq_ok, hb] at hc
    exact absurd rfl hc

theorem preWriteCause_iff : fact.preWriteCause = none ↔ fact.state ≠ .blockedPreWrite := by
  have hc := h.evidence
  unfold checkPreWriteEvidence at hc
  split at hc
  · next hb =>
    simp only [bind_eq_ok, refuseIf_eq_ok, exists_const] at hc
    exact ⟨fun hn => absurd hn hc.1, fun hno => absurd hb hno⟩
  · next hb =>
    simp only [refuseIf_eq_ok, not_or, not_isSome_iff_eq_none] at hc
    exact ⟨fun _ => hb, fun _ => hc.1⟩

end

end TransitionChecked

structure RequeueAccepted (p : MailboxProjection) (messageId : MessageId)
    (requeue : NotificationRequeue) (current : NotificationRecord) : Prop where
  pending : p.entryIsPending requeue.recipient messageId = true
  held : p.notifications.lookup (requeue.recipient, messageId) = some current
  prior : current.attemptId = requeue.priorAttemptId
  attention : current.state = .attentionRequired ∨ current.state = .quotaResetObserved
  unissued : requeue.attemptId ∉ p.notificationAttempts

theorem prepareNotificationRequeueRecord_ok {requeue : NotificationRequeue}
    {requeued : EntryKey × NotificationRecord}
    (h : p.prepareNotificationRequeueRecord line mid requeue = .ok requeued) :
    (∃ current, RequeueAccepted p mid requeue current) ∧ requeued = ((requeue.recipient, mid),
        queuedRecord line requeue.attemptId mid requeue.recipient) := by
  simp only [prepareNotificationRequeueRecord, bind_eq_ok, refuseIf_eq_ok,
    exists_const, requirePendingEntry_eq_ok, currentAttempt_eq_ok, pure_eq_ok, not_not] at h
  obtain ⟨hp, current, ⟨hc, hpr⟩, ha, -, hu, rfl⟩ := h
  exact ⟨⟨current, hp, hc, hpr, ha, hu⟩, rfl⟩

def requeuedRecord (line : LedgerLine) (messageId : MessageId) (requeue : NotificationRequeue) :
    EntryKey × NotificationRecord :=
  ((requeue.recipient, messageId), queuedRecord line requeue.attemptId messageId requeue.recipient)

theorem requeueRecords_ok {a : List NotificationAttemptId}
    {rs : List (EntryKey × NotificationRecord)}
    (h : p.requeueRecords line mid a requeues = .ok rs) :
    (∀ requeue ∈ requeues, (∃ current, RequeueAccepted p mid requeue current) ∧
        requeue.attemptId ∉ a) ∧
      (requeues.map attemptId).Nodup ∧
      rs = requeues.map (requeuedRecord line mid) := by
  induction requeues generalizing a rs with
  | nil =>
    cases h
    simp
  | cons requeue rest ih =>
    simp only [requeueRecords, bind_eq_ok, refuseIf_eq_ok, exists_const, pure_eq_ok] at h
    obtain ⟨hne, requeued, hre, records', hres, rfl⟩ := h
    obtain ⟨ha, rfl⟩ := prepareNotificationRequeueRecord_ok hre
    obtain ⟨hal, hn, rfl⟩ := ih hres
    refine ⟨?_, ?_, rfl⟩
    · rintro r (_ | ⟨_, hr⟩)
      · exact ⟨ha, hne⟩
      · exact ⟨(hal r hr).1, fun hm => (hal r hr).2 (mem_cons_of_mem _ hm)⟩
    · rw [map_cons, nodup_cons]
      refine ⟨fun hm => ?_, hn⟩
      obtain ⟨r, hr, heq⟩ := mem_map.mp hm
      exact (hal r hr).2 (heq ▸ mem_cons_self)

theorem checkRequeueRecipients_ok (h : p.checkRequeueRecipients seen requeues = .ok u) :
    (∀ requeue ∈ requeues, requeue.recipient.workspaceId = p.workspaceId ∧
        requeue.recipient.isAdmin = false ∧ requeue.recipient ∉ seen) ∧
      (requeues.map recipient).Nodup := by
  induction requeues generalizing seen with
  | nil => simp
  | cons requeue rest ih =>
    simp only [checkRequeueRecipients, bind_eq_ok, refuseIf_eq_ok, exists_const,
      checkWorkspace_eq_ok, Bool.not_eq_true] at h
    obtain ⟨hws, hag, hne, hre⟩ := h
    obtain ⟨hal, hn⟩ := ih hre
    refine ⟨?_, ?_⟩
    · rintro r (_ | ⟨_, hr⟩)
      · exact ⟨hws, hag, hne⟩
      · obtain ⟨hw, ha, hs⟩ := hal r hr
        exact ⟨hw, ha, fun hm => hs (mem_cons_of_mem _ hm)⟩
    · rw [map_cons, nodup_cons]
      refine ⟨fun hm => ?_, hn⟩
      obtain ⟨r, hr, heq⟩ := mem_map.mp hm
      exact (hal r hr).2.2 (heq ▸ mem_cons_self)

structure RequeuesAccepted (p : MailboxProjection) (messageId : MessageId)
    (requeues : List NotificationRequeue) : Prop where
  each : ∀ requeue ∈ requeues, ∃ current, RequeueAccepted p messageId requeue current
  agents : ∀ requeue ∈ requeues, requeue.recipient.isAdmin = false
  distinctAttempts : (requeues.map attemptId).Nodup
  distinctRecipients : (requeues.map recipient).Nodup

theorem prepareNotificationRequeues_ok
    (h : p.prepareNotificationRequeues line rv mid requeues = .ok m) :
    RequeuesAccepted p mid requeues ∧
      m = .notificationRequeues (requeues.map (requeuedRecord line mid)) := by
  simp only [prepareNotificationRequeues,
    validateNotificationRequeuesEnvelope, bind_eq_ok, refuseIf_eq_ok,
    exists_const, pure_eq_ok] at h
  obtain ⟨_, ⟨-, _, -, _, hre, -⟩, records, hrec, rfl⟩ := h
  obtain ⟨hal, ha, rfl⟩ := requeueRecords_ok hrec
  obtain ⟨hag, hn⟩ := checkRequeueRecipients_ok hre
  exact ⟨⟨fun r hr => (hal r hr).1, fun r hr => (hag r hr).2.1, ha, hn⟩, rfl⟩

/-! ## All rows -/

/-- What an accepted row has checked, by the mutation it stands for. -/
inductive Accepted [DigestScheme] (p : MailboxProjection) (line : LedgerLine) (replaying : Bool) :
    PreparedMutation → Prop
  | message {messageId : MessageId} {metadata : MessageMetadata} {replyTo : Option MessageId}
      (checked : MessageAccepted p line messageId metadata replyTo) :
      Accepted p line replaying
        (.message messageId metadata (p.supersededNotification line metadata))
  | claim {version : Nat} {messageId : MessageId} {recipient : RecipientKey}
      (data : line.data = some (.mailbox (.messageClaimed version messageId recipient recipient)))
      (pending : p.entryIsPending recipient messageId = true) :
      Accepted p line replaying
        (.claim messageId recipient recipient (p.claimSettlement line recipient messageId))
  | deliveredDirect {attempt : AttemptRef} {current : NotificationRecord}
      (data : line.data = some (.mailbox (.messageDeliveredDirect attempt)))
      (pending : p.entryIsPending attempt.recipient attempt.messageId = true)
      (held : p.notifications.lookup (attempt.recipient, attempt.messageId) = some current)
      (notified : current.state = .notified) (direct : current.transport = .directPayload) :
      Accepted p line replaying
        (.deliveredDirect attempt.messageId attempt.recipient attempt.attemptId)
  | started {fact : NotificationTransition}
      (data : line.data = some (.notification (.notificationTransition fact)))
      (addressed : Addressed p fact.messageId fact.recipient)
      (none_held : p.notifications.lookup (fact.recipient, fact.messageId) = none)
      (queued : fact.state = .queued)
      (pending : p.entryIsPending fact.recipient fact.messageId = true)
      (unissued : fact.attemptId ∉ p.notificationAttempts) :
      Accepted p line replaying (.notification (fact.recipient, fact.messageId)
        (queuedRecord line fact.attemptId fact.messageId fact.recipient) true)
  | moved {fact : NotificationTransition} {current : NotificationRecord}
      (data : line.data = some (.notification (.notificationTransition fact)))
      (addressed : Addressed p fact.messageId fact.recipient)
      (held : p.notifications.lookup (fact.recipient, fact.messageId) = some current)
      (checked : TransitionChecked fact replaying (some current)) :
      Accepted p line replaying (.notification (fact.recipient, fact.messageId)
        (transitionRecord line fact current) false)
  | reminded {attempt : AttemptRef} {current : NotificationRecord}
      (data : line.data = some (.notification (.notificationUnclaimedReminderQueued attempt)))
      (pending : p.entryIsPending attempt.recipient attempt.messageId = true)
      (held : p.notifications.lookup (attempt.recipient, attempt.messageId) = some current)
      (same : current.attemptId = attempt.attemptId)
      (notified : current.state = .notified) (doorbell : current.transport = .doorbell)
      (unused : current.unclaimedReminderCount = 0)
      (retired : attempt.attemptId ∉ p.activeNotificationBarriers) :
      Accepted p line replaying (.notification (attempt.recipient, attempt.messageId)
        (remindedRecord line current) false)
  | requeued {prior : NotificationAttemptId} {attempt : AttemptRef} {current : NotificationRecord}
      (data : line.data = some (.notification (.notificationRequeued prior attempt)))
      (agent : attempt.recipient.isAdmin = false)
      (checked : RequeueAccepted p attempt.messageId
        ⟨prior, attempt.attemptId, attempt.recipient⟩ current) :
      Accepted p line replaying (.notification (attempt.recipient, attempt.messageId)
        (queuedRecord line attempt.attemptId attempt.messageId attempt.recipient) true)
  | requeuedAll {version : Nat} {messageId : MessageId} {requeues : List NotificationRequeue}
      (data : line.data = some (.notification (.notificationsRequeued version messageId requeues)))
      (checked : RequeuesAccepted p messageId requeues) :
      Accepted p line replaying
        (.notificationRequeues (requeues.map (requeuedRecord line messageId)))
  | cleared {attempt : AttemptRef} {current : NotificationRecord}
      (data : line.data = some (.notification (.notificationCleared attempt)))
      (held : p.notifications.lookup (attempt.recipient, attempt.messageId) = some current) :
      Accepted p line replaying (.notificationCleared attempt.attemptId)
  | clearedAll {version : Nat} {batchId : String} {attemptIds : List NotificationAttemptId}
      {operator : RecipientKey} {cutoffMs : Option Nat}
      (data : line.data = some (.notification
        (.notificationsCleared version batchId attemptIds operator cutoffMs))) :
      Accepted p line replaying (.notificationsCleared batchId attemptIds)
  | withdrawn {attempt : AttemptRef} {operator : RecipientKey} {current : NotificationRecord}
      (data : line.data = some (.notification (.notificationWithdrawnBeforeWrite attempt operator)))
      (filed : p.entryIsPending attempt.recipient attempt.messageId = true ∨
        p.entryIsClaimed attempt.recipient attempt.messageId = true)
      (held : p.notifications.lookup (attempt.recipient, attempt.messageId) = some current)
      (same : current.attemptId = attempt.attemptId)
      (unwritten : current.state.canWithdrawBeforeWrite = true ∨
        replaying = true ∧ withdrawnByClaimBeforeWrite current = true) :
      Accepted p line replaying (.notificationWithdrawnBeforeWrite
        (attempt.recipient, attempt.messageId) (withdrawnRecord line attempt current))
  | intent {attempt : AttemptRef} {resolution : NotificationResolution} {forced : Bool}
      (data : line.data =
        some (.notification (.notificationResolutionIntent attempt resolution forced))) :
      Accepted p line replaying (.notificationResolutionIntent attempt.attemptId resolution forced)
  | actionReserved {attempt : AttemptRef} {resolution : NotificationResolution} (data : line.data =
        some (.notification (.notificationResolutionActionReserved attempt resolution))) :
      Accepted p line replaying (.notificationResolutionActionReserved attempt.attemptId resolution)
  | actionAccepted {attempt : AttemptRef} {resolution : NotificationResolution} (data : line.data =
        some (.notification (.notificationResolutionActionAccepted attempt resolution))) :
      Accepted p line replaying (.notificationResolutionActionAccepted attempt.attemptId resolution)
  | consumptionObserved {attempt : AttemptRef}
      {observation : NotificationResolutionConsumptionObservation}
      (data : line.data =
        some (.notification (.notificationResolutionConsumptionObserved attempt observation))) :
      Accepted p line replaying
        (.notificationResolutionConsumptionObserved attempt.attemptId observation)
  | intentWithdrawn {attempt : AttemptRef} {resolution : NotificationResolution} (data : line.data =
        some (.notification (.notificationResolutionIntentWithdrawn attempt resolution))) :
      Accepted p line replaying (.notificationResolutionIntentWithdrawn attempt.attemptId)
  | resolvedWithoutAction {attempt : AttemptRef} {resolution : NotificationResolution}
      (data : line.data =
        some (.notification (.notificationResolvedWithoutTerminalAction attempt resolution))) :
      Accepted p line replaying
        (.notificationResolvedWithoutTerminalAction attempt.attemptId resolution)
  | resolved {proofVersion : Nat} {attempt : AttemptRef} {resolution : NotificationResolution}
      (data : line.data =
        some (.notification (.notificationResolved proofVersion attempt resolution))) :
      Accepted p line replaying (.notificationResolved attempt.attemptId resolution)
  | stagedCleared {attempt : AttemptRef} {current : NotificationRecord}
      (data : line.data = some (.notification (.notificationClaimedStagedCleared attempt)))
      (addressed : Addressed p attempt.messageId attempt.recipient)
      (held : p.notifications.lookup (attempt.recipient, attempt.messageId) = some current)
      (same : current.attemptId = attempt.attemptId) (staged : current.state = .staged)
      (claimed : p.claimedByRecipient attempt.recipient attempt.messageId = true) :
      Accepted p line replaying (.notificationClaimedStagedCleared
        (attempt.recipient, attempt.messageId) (stagedClearedRecord line current)
        attempt.attemptId)
  | ackTimeout {attempt : AttemptRef} {current : NotificationRecord}
      (data : line.data = some (.notification (.notificationClaimedAckTimeoutReconciled attempt)))
      (addressed : Addressed p attempt.messageId attempt.recipient)
      (held : p.notifications.lookup (attempt.recipient, attempt.messageId) = some current)
      (same : current.attemptId = attempt.attemptId)
      (attention : current.state = .attentionRequired)
      (claimed : p.exactRecipientClaimedAfterWrite current = true) :
      Accepted p line replaying (.notificationClaimedAckTimeoutReconciled
        (attempt.recipient, attempt.messageId) (reconciledRecord line current)
        attempt.attemptId)
  | barrierRetired {attempt : AttemptRef} {cause : NotificationBarrierRetirementCause}
      {replacement : Option NotificationBinding}
      (data : line.data =
        some (.notification (.notificationBarrierRetired attempt cause replacement))) :
      Accepted p line replaying (.notificationBarrierRetired attempt.attemptId)

theorem Accepted.of_transition [DigestScheme] {replaying : Bool} {fact : NotificationTransition}
    (h : Accepted p line replaying m)
    (hda : line.data = some (.notification (.notificationTransition fact))) :
    fact.state = .queued ∨
      ∃ current, p.notifications.lookup (fact.recipient, fact.messageId) = some current ∧
        TransitionChecked fact replaying (some current) ∧
        m = .notification (fact.recipient, fact.messageId) (transitionRecord line fact current)
          false := by
  cases h with
  | message checked => cases hda.symm.trans checked.data
  | started hd _ _ hq =>
    cases hda.symm.trans hd
    exact .inl hq
  | @moved _ current hd _ held checked =>
    cases hda.symm.trans hd
    exact .inr ⟨current, held, checked, rfl⟩
  | _ hd => cases hda.symm.trans hd

section Inversion

variable [DigestScheme] {rp : Bool} {m : PreparedMutation}

theorem accepted_transition {fact : NotificationTransition}
    (hd : line.data = some (.notification (.notificationTransition fact)))
    (h : p.prepareNotificationTransition line fact rp = .ok m) :
    Accepted p line rp m := by
  simp only [prepareNotificationTransition, bind_eq_ok] at h
  obtain ⟨_, hen, _, he, _, hb, _, ht, _, hc, _, hev, h⟩ := h
  have ha := addressed_of_envelope hen
  split at h
  · next hn =>
    rw [hn] at he
    simp only [bind_eq_ok, refuseIf_eq_ok, exists_const, pure_eq_ok, requirePendingEntry_eq_ok] at h
    obtain ⟨hp, hu, rfl⟩ := h
    simp only [checkTransitionEdge, refuseIf_eq_ok, not_not] at he
    exact .started hd ha hn he hp hu
  · next current hh =>
    rw [pure_eq_ok] at h
    subst h
    rw [hh] at he hc
    exact .moved hd ha hh ⟨he, hb, ht, hc, hev⟩

theorem accepted_fact {fact : NotificationFact} (hd : line.data = some (.notification fact))
    (h : p.prepareNotificationFact line rp fact = .ok m) : Accepted p line rp m := by
  unfold prepareNotificationFact at h
  cases fact with
  | notificationTransition => exact accepted_transition hd h
  | notificationUnclaimedReminderQueued =>
    simp only [prepareUnclaimedReminderQueued, bind_eq_ok, refuseIf_eq_ok,
      exists_const, pure_eq_ok, requirePendingEntry_eq_ok, currentAttempt_eq_ok, not_or,
      not_not] at h
    obtain ⟨_, -, hp, current, ⟨hh, hs⟩, ⟨hsta, ht, hun, hre⟩, rfl⟩ :=
      h
    exact .reminded hd hp hh hs hsta ht hun hre
  | notificationRequeued =>
    simp only [prepareNotificationRequeue, bind_eq_ok, pure_eq_ok] at h
    obtain ⟨_, he, requeued, hr, rfl⟩ := h
    obtain ⟨⟨current, hc⟩, rfl⟩ := prepareNotificationRequeueRecord_ok hr
    exact .requeued hd (addressed_of_envelope he).agent hc
  | notificationsRequeued =>
    obtain ⟨hc, rfl⟩ := prepareNotificationRequeues_ok h
    exact .requeuedAll hd hc
  | notificationWithdrawnBeforeWrite =>
    simp only [prepareNotificationWithdrawal, bind_eq_ok, refuseIf_eq_ok,
      exists_const, pure_eq_ok, orRefuse_eq_ok, currentAttempt_eq_ok] at h
    obtain ⟨_, -, -, -, -, -, -, entry, hen, hf, current, ⟨hh, hs⟩, hu, rfl⟩ := h
    refine .withdrawn hd ?_ hh hs ?_
    · rw [entryIsPending, entryIsClaimed, hen]
      exact or_iff_not_and_not.mpr (by simpa using hf)
    · exact or_iff_not_and_not.mpr fun hb =>
        hu ⟨Bool.not_eq_true _ ▸ hb.1, hb.2⟩
  | notificationClaimedStagedCleared =>
    simp only [prepareNotificationClaimedStagedClear, bind_eq_ok, refuseIf_eq_ok,
      exists_const, pure_eq_ok, currentAttempt_eq_ok, not_or, not_not,
      Bool.not_eq_false] at h
    obtain ⟨_, he, current, ⟨hh, hs⟩, ⟨hst, -⟩, hcl, -, -, -, rfl⟩ := h
    exact .stagedCleared hd (addressed_of_envelope he) hh hs hst hcl
  | notificationClaimedAckTimeoutReconciled =>
    simp only [prepareNotificationClaimedAckTimeoutReconciliation, bind_eq_ok,
      refuseIf_eq_ok, exists_const, pure_eq_ok, currentAttempt_eq_ok, Bool.not_eq_false] at h
    obtain ⟨_, he, current, ⟨hh, hs⟩, hn, hcl, -, -, -, rfl⟩ := h
    exact .ackTimeout hd (addressed_of_envelope he) hh hs (needsAckTimeout_state hn) hcl
  | notificationCleared =>
    simp only [prepareNotificationClear, bind_eq_ok, currentAttempt_eq_ok, pure_eq_ok] at h
    obtain ⟨_, -, current, ⟨hh, -⟩, _, -, rfl⟩ := h
    exact .cleared hd hh
  | notificationsCleared =>
    simp only [prepareNotificationClears, bind_eq_ok, pure_eq_ok] at h
    obtain ⟨_, -, _, -, _, -, _, -, _, -, _, -, _, -, _, -, _, -, rfl⟩ := h
    exact .clearedAll hd
  | notificationResolutionIntent =>
    simp only [prepareNotificationResolutionIntent, bind_eq_ok, pure_eq_ok] at h
    obtain ⟨_, -, _, -, _, -, _, -, rfl⟩ := h
    exact .intent hd
  | notificationResolutionActionReserved =>
    simp only [prepareNotificationResolutionActionReserved, bind_eq_ok, pure_eq_ok] at h
    obtain ⟨_, -, _, -, rfl⟩ := h
    exact .actionReserved hd
  | notificationResolutionActionAccepted =>
    simp only [prepareNotificationResolutionActionAccepted, bind_eq_ok, pure_eq_ok] at h
    obtain ⟨_, -, _, -, rfl⟩ := h
    exact .actionAccepted hd
  | notificationResolutionConsumptionObserved =>
    simp only [prepareNotificationResolutionConsumptionObserved, bind_eq_ok, pure_eq_ok] at h
    obtain ⟨_, -, _, -, rfl⟩ := h
    exact .consumptionObserved hd
  | notificationResolutionIntentWithdrawn =>
    simp only [prepareNotificationResolutionIntentWithdrawn, bind_eq_ok, pure_eq_ok] at h
    obtain ⟨_, -, _, -, _, -, rfl⟩ := h
    exact .intentWithdrawn hd
  | notificationResolvedWithoutTerminalAction =>
    simp only [prepareNotificationResolutionWithoutTerminalAction, bind_eq_ok, pure_eq_ok] at h
    obtain ⟨_, -, _, -, _, -, rfl⟩ := h
    exact .resolvedWithoutAction hd
  | notificationResolved =>
    simp only [prepareNotificationResolution, bind_eq_ok, pure_eq_ok] at h
    obtain ⟨_, -, _, -, _, -, rfl⟩ := h
    exact .resolved hd
  | notificationBarrierRetired =>
    simp only [prepareNotificationBarrierRetirement, bind_eq_ok, pure_eq_ok] at h
    obtain ⟨_, -, _, -, _, -, rfl⟩ := h
    exact .barrierRetired hd

theorem accepted_state (h : p.prepareState line rp = .ok m) : Accepted p line rp m := by
  unfold prepareState at h
  split at h
  · next hd =>
    simp only [prepareClaim, bind_eq_ok, refuseIf_eq_ok, exists_const, pure_eq_ok, not_not] at h
    obtain ⟨_, -, -, -, -, -, _, -, _, -, rfl, _, hp, rfl⟩ := h
    exact .claim hd (requireClaimable_ok hp)
  · next hd =>
    simp only [prepareDeliveredDirect, bind_eq_ok, refuseIf_eq_ok, exists_const,
      pure_eq_ok, requirePendingEntry_eq_ok, currentAttempt_eq_ok, not_or, not_not] at h
    obtain ⟨_, -, -, -, -, hp, current, ⟨hh, -⟩, ⟨hs, ht⟩, rfl⟩ := h
    exact .deliveredDirect hd hp hh hs ht
  · next hd => exact accepted_fact hd h
  all_goals cases h

/-- An accepted row carries the next sequence number and has passed the checks of
its mutation. -/
theorem accepted_of_prepare (h : p.prepareLineInner line rp = .ok m) :
    line.seq = p.head + 1 ∧ line.seq < u64Bound ∧ Accepted p line rp m := by
  simp only [prepareLineInner, bind_eq_ok, refuseIf_eq_ok, exists_const,
    not_not, not_le] at h
  obtain ⟨hb, hs, h⟩ := h
  refine ⟨hs, hs ▸ hb, ?_⟩
  split at h
  · next hk =>
    obtain ⟨_, _, _, hc, rfl⟩ := prepareMessage_eq_ok (.inl hk) h
    exact .message hc
  · next hk =>
    obtain ⟨_, _, _, hc, rfl⟩ := prepareMessage_eq_ok (.inr hk) h
    exact .message hc
  · exact accepted_state h
  · cases h
  · cases h

end Inversion

end Cyclops
