import Cyclops.Mailbox.StoreFacts

/-!
# The rows of the store's operations

What each operation of the store has checked when it decides to append, and the row it appends.
-/

namespace Cyclops

open Checked FiniteMap

namespace MessageStore

variable {store : MessageStore}

def Stamped (store : MessageStore) (line : LedgerLine) : Prop :=
  line.bootId = store.writer.bootId ∧ line.ts ≠ 0

def StampedPlan {α : Type} (store : MessageStore) (plan : Except Failure (Plan α)) : Prop :=
  ∀ line result, plan = .ok (.append line result) → store.Stamped line

theorem stamp_ne_zero (ts now : Nat) : stamp ts now ≠ 0 := by
  unfold stamp
  split <;> omega

variable {ts now : Nat} {messageId : MessageId} {line : LedgerLine} {k : RecipientKey}
  {attemptId : NotificationAttemptId} {o : RecipientKey} {id s : String}
  {st : List String} {data : RowData} {d : CanonicalDraft} {c : RecipientKey}
  {res : MailboxProjection → Option NotificationRecord} {a : List NotificationAttemptId}
  {cm : Option Nat} {draw : Uuid}

theorem stamped_stateRow : store.Stamped (store.stateRow id (stamp ts now) s st data) :=
  ⟨rfl, stamp_ne_zero ts now⟩

theorem stampedPlan_append_stateRow {α : Type} {res : MailboxProjection → Option α} :
    store.StampedPlan (.ok (.append (store.stateRow id (stamp ts now) s st data) res)) := by
  intro line _ h
  cases h
  exact stamped_stateRow

/-! ## Messages -/

theorem acceptCanonicalAt_append [DigestScheme] {res : MailboxProjection → Option AcceptResult}
    (h : store.acceptCanonicalAt messageId d ts now = .ok (.append line res)) :
    ∃ digest root labels, store.projection.checkAcceptance d = .ok (.new digest) ∧
      store.draftThreadRoot messageId d = .ok root ∧
      presentationLabels d.recipients d.presentation = .ok labels ∧
      line = store.messageRow messageId d labels.2 (store.draftMetadata d root digest)
        (stamp ts now) ∧
      res = fun _ => some {
        messageId, threadRoot := root, inserted := true, seq := line.seq, recipients := line.sentTo
        recipientKeys := d.recipients } := by
  simp only [acceptCanonicalAt, bind_eq_ok, liftMailbox_eq_ok] at h
  obtain ⟨oc, ho, h⟩ := h
  cases oc with
  | existing =>
    simp only [bind_eq_ok] at h
    obtain ⟨_, -, h⟩ := h
    cases h
  | new digest =>
    simp only [bind_eq_ok, liftMailbox_eq_ok] at h
    obtain ⟨root, hr, labels, hl, rfl, rfl⟩ := h
    exact ⟨digest, root, labels, ho, hr, hl, rfl, rfl⟩

theorem stampedPlan_acceptCanonicalAt [DigestScheme] :
    store.StampedPlan (store.acceptCanonicalAt messageId d ts now) := by
  intro line res h
  obtain ⟨_, _, _, -, -, -, rfl, -⟩ := acceptCanonicalAt_append h
  exact ⟨rfl, stamp_ne_zero ts now⟩

theorem stampedPlan_replyAt [DigestScheme] {d : ReplyDraft} :
    store.StampedPlan (store.replyAt messageId d ts now) := by
  intro line res h
  obtain ⟨_, -, h⟩ := bind_eq_ok.mp h
  exact stampedPlan_acceptCanonicalAt line res h

/-! ## Claims -/

theorem claimAt_append {res : MailboxProjection → Option ClaimOutcome}
    (h : store.claimAt c messageId ts now = .ok (.append line res)) :
    ∃ e message, store.projection.getEntry c messageId = some e ∧
      (∃ row, store.projection.messages.lookup messageId = some row ∧
        inboxMessage row c = .ok message) ∧ e.state = .pending ∧
      line = store.stateRow messageId.text (stamp ts now) c.text []
        (.mailbox (.messageClaimed canonicalRecordVersion messageId e.recipient c)) ∧
      res = fun p => (p.getEntry c messageId).map fun u =>
        .claimed u message (store.skippedOldest c messageId)
          (store.withdrawnAttempt e.recipient messageId)
          (store.consumedDoorbellAttempt e.recipient messageId) := by
  simp only [claimAt, bind_eq_ok, liftMailbox_eq_ok, orRefuse_eq_ok] at h
  obtain ⟨e, he, row, hr, message, hm, h⟩ := h
  split at h
  · split at h <;> cases h
  · cases h
  · cases h
  · next hs =>
    cases h
    exact ⟨e, message, he, ⟨row, hr, hm⟩, hs, rfl, rfl⟩

theorem stampedPlan_claimAt : store.StampedPlan (store.claimAt c messageId ts now) := by
  intro line res h
  obtain ⟨_, _, -, -, -, rfl, -⟩ := claimAt_append h
  exact stamped_stateRow

/-! ## Clearances and withdrawals -/

theorem clearNotificationAt_append
    (h : store.clearNotificationAt messageId k attemptId ts now = .append line res) :
    store.appendNotificationFactAt messageId k
      (.notificationCleared ⟨canonicalRecordVersion, attemptId, messageId, k⟩) ts now =
      .append line res := by
  simp only [clearNotificationAt] at h
  split at h
  · cases h
  · exact h

theorem stampedPlan_clearNotificationAt :
    store.StampedPlan (.ok (store.clearNotificationAt messageId k attemptId ts now)) := by
  intro line res h
  have hr := clearNotificationAt_append (Except.ok.inj h)
  cases hr
  exact stamped_stateRow

theorem clearNotificationsAt_append {res : MailboxProjection → Option Unit}
    (h : store.clearNotificationsAt o a cm ts now draw = .ok (.append line res)) :
    ∃ ks, line = store.stateRow ("clear-" ++ String.ofList draw.simple) (stamp ts now)
      o.text (sortedTexts ks)
      (.notification (.notificationsCleared canonicalRecordVersion
        ("clear-" ++ String.ofList draw.simple) a o cm)) ∧
      res = fun _ => some () := by
  simp only [clearNotificationsAt, bind_eq_ok] at h
  obtain ⟨_, -, h⟩ := h
  split at h
  · cases h
  · obtain ⟨ks, -, h⟩ := bind_eq_ok.mp h
    cases h
    exact ⟨ks, rfl, rfl⟩

theorem stampedPlan_clearNotificationsAt : store.StampedPlan
      (liftMailbox (store.clearNotificationsAt o a cm ts now draw)) := by
  intro line res h
  obtain ⟨_, rfl, -⟩ := clearNotificationsAt_append (liftMailbox_eq_ok.mp h)
  exact stamped_stateRow

theorem withdrawNotificationBeforeWrite_append
    (h : store.withdrawNotificationBeforeWrite o k attemptId now = .ok (.append line res)) :
    ∃ current, store.projection.notificationByAttempt attemptId = some current ∧
      current.recipient = k ∧ current.state.canWithdrawBeforeWrite = true ∧
      line = store.stateRow current.messageId.text (max now 1) o.text [k.text]
        (.notification (.notificationWithdrawnBeforeWrite
          ⟨canonicalRecordVersion, attemptId, current.messageId, k⟩ o)) ∧
      res = fun p => p.notification k current.messageId := by
  simp only [withdrawNotificationBeforeWrite, bind_eq_ok, orRefuse_eq_ok, refuseIf_eq_ok,
    exists_const, not_not] at h
  obtain ⟨-, current, hc, hr, h⟩ := h
  split at h
  · cases h
  · simp only [refuseIf_bind_eq_ok, Bool.not_eq_false] at h
    obtain ⟨hu, rfl, rfl⟩ := h
    exact ⟨current, hc, hr, hu, rfl, rfl⟩

theorem stampedPlan_withdrawNotificationBeforeWrite : store.StampedPlan
      (liftMailbox (store.withdrawNotificationBeforeWrite o k attemptId now)) := by
  intro line res h
  obtain ⟨cur, -, -, -, rfl, -⟩ :=
    withdrawNotificationBeforeWrite_append (liftMailbox_eq_ok.mp h)
  exact ⟨rfl, stamp_ne_zero 0 now⟩

/-! ## Recovery -/

theorem recoverNotification_eq (store : MessageStore) (r : NotificationRecord) (now : Nat) :
    ∃ fact : NotificationTransition, (fact.state = .notified ∨ fact.state = .attentionRequired) ∧
      store.recoverNotification r now = store.appendNotificationTransitionFullAt fact now now := by
  unfold recoverNotification
  split
  · exact ⟨_, .inl rfl, rfl⟩
  · exact ⟨_, .inr rfl, rfl⟩

theorem stampedPlan_recoverNotification (r : NotificationRecord) (now : Nat) :
    store.StampedPlan (.ok (store.recoverNotification r now)) := by
  obtain ⟨fact, -, heq⟩ := recoverNotification_eq store r now
  intro line res hp
  rw [heq] at hp
  cases hp
  exact stamped_stateRow

end MessageStore

end Cyclops
