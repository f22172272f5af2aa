import Cyclops.Daemon
import Cyclops.Mailbox.Reads
import Cyclops.Mailbox.Refinement
import Cyclops.Mailbox.Replay

/-!
# Nothing the source expects is missing

The store reads back what it has just appended, and its reads follow one map of the projection into
another.

Result: `representation_invariant`.
-/

namespace Cyclops

open Checked FiniteMap MailboxProjection List Option Board MessageStore

/-! ## Entries and records are never lost -/

namespace Board

variable {b : Board} {key : EntryKey}

theorem foldl_record_ne_none (h : b.record key ≠ none) (actions : List Action) :
    (actions.foldl act b).record key ≠ none :=
  Runs.foldl_invariant (fun b : Board => b.record key ≠ none)
    (fun _ action h => act_record_ne_none h action) h

theorem foldl_start_record {rec : NotificationRecord} {actions : List Action}
    (h : .start key rec ∈ actions) : (actions.foldl act b).record key ≠ none := by
  obtain ⟨bef, after, rfl⟩ := append_of_mem h
  rw [foldl_append, foldl_cons]
  exact foldl_record_ne_none (by simp [act, hold]) after

end Board

variable [DigestScheme] {p q : MailboxProjection} {line : LedgerLine} {workspaceId : WorkspaceId}
  {replaying : Bool} {r : RecipientKey} {m : MessageId} {fact : NotificationFact}

theorem Applies.getEntry_ne_none (h : Applies replaying p line q) (hp : Coherent p)
    (he : p.getEntry r m ≠ none) :
    q.getEntry r m ≠ none := by
  obtain ⟨_, -, -, hb⟩ := h.board hp
  have hk : q.board.entry (r, m) ≠ none := by
    rw [hb]
    refine Runs.foldl_invariant (fun b : Board => b.entry (r, m) ≠ none)
      (fun _ action h => act_entry_ne_none h action) ?_
    simpa [MailboxProjection.board] using he
  simpa [MailboxProjection.board] using hk

def NotificationFact.names : NotificationFact → List EntryKey
  | notificationTransition fact => [(fact.recipient, fact.messageId)]
  | notificationRequeued _ attempt => [(attempt.recipient, attempt.messageId)]
  | notificationsRequeued _ messageId requeues =>
    requeues.map fun requeue => (requeue.recipient, messageId)
  | notificationCleared attempt => [(attempt.recipient, attempt.messageId)]
  | notificationWithdrawnBeforeWrite attempt _ => [(attempt.recipient, attempt.messageId)]
  | _ => []

theorem Accepted.names_held {m : PreparedMutation} {key : EntryKey}
    (h : Accepted p line replaying m) (hda : line.data = some (.notification fact))
    (hk : key ∈ fact.names) :
    ((m.actions line).foldl act p.board).record key ≠ none := by
  cases h with
  | message hc => cases hda.symm.trans hc.data
  | claim hd | deliveredDirect hd => cases hda.symm.trans hd
  | started hd | requeued hd =>
    cases hda.symm.trans hd
    rw [mem_singleton.mp hk]
    exact foldl_start_record mem_cons_self
  | moved hd | withdrawn hd =>
    cases hda.symm.trans hd
    rw [mem_singleton.mp hk]
    simp [PreparedMutation.actions, act, hold]
  | requeuedAll hd =>
    cases hda.symm.trans hd
    obtain ⟨requeue, hm, rfl⟩ := mem_map.mp hk
    exact foldl_start_record (mem_map_of_mem (mem_map_of_mem hm))
  | cleared hd held =>
    cases hda.symm.trans hd
    rw [mem_singleton.mp hk]
    exact foldl_record_ne_none (by simp [board, held]) _
  | reminded hd | clearedAll hd | intent hd | actionReserved hd | actionAccepted hd
  | consumptionObserved hd | intentWithdrawn hd | resolvedWithoutAction hd | resolved hd
  | stagedCleared hd | ackTimeout hd | barrierRetired hd =>
    cases hda.symm.trans hd; cases hk

theorem Applies.names_held (h : Applies replaying p line q) (hp : Coherent p)
    (hda : line.data = some (.notification fact)) (hk : (r, m) ∈ fact.names) :
    q.notification r m ≠ none := by
  obtain ⟨mutation, hm, -, hb⟩ := h.board hp
  have hh := (accepted_of_prepare hm).2.2.names_held hda hk
  rw [← hb] at hh
  exact hh

/-! ## Plans that answer -/

namespace MessageStore

variable {st : MessageStore} {env : Env}

/-- A plan that does not panic, and finds its answer after its row. -/
structure Answered {α : Type} (store : MessageStore) (plan : Except Failure (Plan α)) : Prop where
  planned : plan ≠ .error .panicked
  found : ∀ line result q, plan = .ok (.append line result) →
    Applies false store.projection line q → result q ≠ none

theorem Aligned.append_ne_panicked (h : st.Aligned) (hst : st.Stamped line) :
    (st.append line env).2 ≠ .error .panicked := by
  have ho : AppendOutcome st line (st.append line env) := h.append_outcome hst
  generalize st.append line env = res at ho
  cases ho <;> exact fun h => (nomatch h)

variable {α : Type} {plan : Except Failure (Plan α)} {mid : MessageId}
  {k : RecipientKey} {ts now : Nat}

section

variable (h : st.Aligned) (hst : st.StampedPlan plan)

include h hst

theorem Aligned.perform_ne_panicked (han : st.Answered plan) : (st.perform plan env).2 ≠
    .error .panicked := by
  unfold perform
  split
  · exact fun heq => han.planned (by cases heq; rfl)
  · exact fun heq => (nomatch heq)
  · next line res =>
    have ho : AppendOutcome st line (st.append line env) :=
      h.append_outcome (hst line res rfl)
    split
    · next ha =>
      have hpa : (st.append line env).2 ≠ _ := h.append_ne_panicked (hst line res rfl)
      rw [ha] at hpa
      exact fun heq => hpa (by cases heq; rfl)
    · next ha =>
      rw [ha] at ho
      cases ho with
      | applied hb healthy hap =>
        obtain ⟨v, hv⟩ :=
          ne_none_iff_exists'.mp (han.found line res _ rfl hap)
        simp [hv, orRefuse]

theorem Aligned.performUnit_ne_panicked (ha : st.Answered plan) :
    (st.performUnit plan env).2 ≠ .error .panicked :=
  map_ne_error (h.perform_ne_panicked hst ha)

theorem Aligned.perform : (st.perform plan env).1.Aligned := by
  rcases perform_fst plan with heq | ⟨line, result, hpl, heq⟩
  · rw [heq]
    exact h
  · have ho : AppendOutcome st line (st.append line env) :=
      h.append_outcome (hst line result hpl)
    rw [heq]
    generalize st.append line env = result at ho
    cases ho with
    | refused => exact h
    | unwritten => exact h
    | torn => exact ⟨h.coherent, h.next⟩
    | applied hb healthy ha =>
      refine ⟨h.coherent.applies ha, ?_⟩
      obtain ⟨hs, hh, -⟩ := ha.seq
      change st.writer.nextSeq + 1 = _
      rw [hh, hs, h.next]

end

/-! ## The plans of the store -/

variable {fact : NotificationFact} {d : CanonicalDraft} {a : NotificationAttemptId}
  {o : RecipientKey}

theorem answered_fact (hp : Coherent st.projection) {res : MailboxProjection → Option α}
    (hda : line.data = some (.notification fact))
    (hr : ∀ q : MailboxProjection, (∀ key ∈ fact.names, q.notification key.1 key.2 ≠ none) →
      res q ≠ none) : st.Answered (.ok (.append line res)) where
  planned := fun h => (nomatch h)
  found := by
    intro _ _ q hpl ha
    cases hpl
    exact hr q fun key hk => ha.names_held hp hda hk

theorem answered_appendNotificationFactAt (hp : Coherent st.projection)
    (hn : (k, mid) ∈ fact.names) :
    st.Answered (.ok (st.appendNotificationFactAt mid k fact ts now)) :=
  answered_fact hp rfl fun _ ha => ha _ hn

theorem answered_requeueNotificationsAt (hp : Coherent st.projection)
    {requeues : List NotificationRequeue} :
    st.Answered (.ok (st.requeueNotificationsAt mid requeues ts now)) := by
  refine answered_fact hp rfl fun q ha => ?_
  simp only [NotificationFact.names, List.forall_mem_map] at ha
  induction requeues with
  | nil => exact some_ne_none _
  | cons requeue rest ih =>
    obtain ⟨rec, hre⟩ :=
      ne_none_iff_exists'.mp (ha requeue mem_cons_self)
    obtain ⟨rs, hr⟩ := ne_none_iff_exists'.mp (ih fun other ho => ha other (mem_cons_of_mem _ ho))
    simp [hre, hr]

omit [DigestScheme] in
theorem liftMailbox_ne_panicked (x : Except MailboxError α) : liftMailbox x ≠ .error .panicked := by
  cases x <;> exact fun h => (nomatch h)

theorem checkAcceptance_existing (hp : Coherent p) {e : MessageId}
    (h : p.checkAcceptance d = .ok (.existing e)) :
    p.getMessage e ≠ none := by
  simp only [checkAcceptance, bind_eq_ok] at h
  obtain ⟨-, -, -, -, -, -, -, -, -, -, -, -, -, -, h⟩ := h
  split at h
  · next ei digest hf =>
    simp only [refuseIf_bind_eq_ok, pure_eq_ok, AcceptanceOutcome.existing.injEq] at h
    obtain ⟨key, -, hi⟩ := bind_eq_some_iff.mp hf
    obtain ⟨line, _, hl, -⟩ := hp.keyed.mp hi
    rw [← h.2, getMessage, hl]
    exact some_ne_none _
  · obtain ⟨_, -, h⟩ := bind_eq_ok.mp h
    cases h

section

variable (hp : Coherent st.projection)

include hp

theorem answered_acceptCanonicalAt : st.Answered (st.acceptCanonicalAt mid d ts now) where
  planned := by
    refine bind_ne_error (liftMailbox_ne_panicked _) fun oc ho => ?_
    cases oc with
    | existing =>
      obtain ⟨line, hl⟩ := ne_none_iff_exists'.mp
        (checkAcceptance_existing hp (liftMailbox_eq_ok.mp ho))
      refine bind_ne_error (bind_ne_error ?_ fun _ _ => bind_ne_error (liftMailbox_ne_panicked _)
        fun _ _ h => (nomatch h)) fun _ _ h => (nomatch h)
      rw [hl]
      exact fun h => (nomatch h)
    | new =>
      exact bind_ne_error (liftMailbox_ne_panicked _) fun _ _ =>
        bind_ne_error (liftMailbox_ne_panicked _) fun _ _ h => (nomatch h)
  found := by
    intro line res q hpl _
    obtain ⟨_, _, _, -, -, -, -, rfl⟩ := acceptCanonicalAt_append hpl
    exact some_ne_none _

theorem answered_replyAt {d : ReplyDraft} : st.Answered (st.replyAt mid d ts now) where
  planned := bind_ne_error (liftMailbox_ne_panicked _) fun _ _ =>
    (answered_acceptCanonicalAt hp).planned
  found := by
    intro line res q hpl ha
    obtain ⟨_, -, hpl⟩ := bind_eq_ok.mp hpl
    exact (answered_acceptCanonicalAt hp).found line res q hpl ha

theorem answered_claimAt {c : RecipientKey} : st.Answered (st.claimAt c mid ts now) where
  planned := by
    refine bind_ne_error (liftMailbox_ne_panicked _) fun e _ =>
      bind_ne_error (liftMailbox_ne_panicked _) fun line _ =>
        bind_ne_error (liftMailbox_ne_panicked _) fun msg _ => ?_
    split
    · split <;> exact fun h => (nomatch h)
    all_goals exact fun h => (nomatch h)
  found := by
    intro line res q hpl ha
    obtain ⟨e, _, he, -, -, -, rfl⟩ := claimAt_append hpl
    have hf : st.projection.getEntry c mid ≠ none := by simp [he]
    simpa using ha.getEntry_ne_none hp hf

theorem answered_clearNotificationAt :
    st.Answered (.ok (st.clearNotificationAt mid k a ts now)) where
  planned := fun h => (nomatch h)
  found := by
    intro line res q hpl ha
    have hr := clearNotificationAt_append (Except.ok.inj hpl)
    exact (answered_appendNotificationFactAt hp mem_cons_self).found line res q
      (congrArg Except.ok hr) ha

end

theorem answered_clearNotificationsAt {ai : List NotificationAttemptId}
    {c : Option Nat} {draw : Uuid} :
    st.Answered (liftMailbox (st.clearNotificationsAt o ai c ts now draw)) where
  planned := liftMailbox_ne_panicked _
  found := by
    intro line res q hpl _
    obtain ⟨_, -, rfl⟩ := clearNotificationsAt_append (liftMailbox_eq_ok.mp hpl)
    exact some_ne_none _

theorem answered_withdrawNotificationBeforeWrite (hp : Coherent st.projection) : st.Answered
      (liftMailbox (st.withdrawNotificationBeforeWrite o k a now)) where
  planned := liftMailbox_ne_panicked _
  found := by
    intro line res q hpl ha
    obtain ⟨c, -, -, -, rfl, rfl⟩ :=
      withdrawNotificationBeforeWrite_append (liftMailbox_eq_ok.mp hpl)
    exact ha.names_held hp rfl mem_cons_self

theorem answered_recoverNotification (hp : Coherent st.projection) (rec : NotificationRecord)
    (now : Nat) : st.Answered (.ok (st.recoverNotification rec now)) := by
  obtain ⟨fact, -, heq⟩ := recoverNotification_eq st rec now
  rw [heq]
  exact answered_appendNotificationFactAt hp mem_cons_self

theorem Aligned.recoverNotifications_ne_panicked {rs : List NotificationRecord}
    {env : NotificationAttemptId → Env} (h : st.Aligned) :
    (recoverNotifications env rs st).2 ≠ .error .panicked := by
  induction rs generalizing st with
  | nil => rintro ⟨⟩
  | cons rec rest ih =>
    have hs : st.StampedPlan _ :=
      stampedPlan_recoverNotification rec (env rec.attemptId).now
    have ha : (st.perform _ (env rec.attemptId)).1.Aligned := h.perform hs
    have hpa : (st.perform _ (env rec.attemptId)).2 ≠ _ :=
      h.perform_ne_panicked hs (answered_recoverNotification h.coherent rec _)
    unfold recoverNotifications
    split
    · next hst =>
      rw [hst] at hpa
      exact fun heq => hpa (by cases heq; rfl)
    · next hst =>
      rw [hst] at ha
      have hr := ih ha
      split
      · next hs' =>
        rw [hs'] at hr
        exact hr
      · rintro ⟨⟩

theorem Aligned.operate_ne_panicked (h : st.Aligned) (op : StoreOperation) :
    (st.operate op).2 ≠ .error .panicked := by
  have hp := h.coherent
  cases op with
  | accept =>
    exact h.performUnit_ne_panicked stampedPlan_acceptCanonicalAt (answered_acceptCanonicalAt hp)
  | reply =>
    exact h.performUnit_ne_panicked stampedPlan_replyAt (answered_replyAt hp)
  | claim =>
    exact h.performUnit_ne_panicked stampedPlan_claimAt (answered_claimAt hp)
  | transition | requeue =>
    exact h.performUnit_ne_panicked stampedPlan_append_stateRow
      (answered_appendNotificationFactAt hp mem_cons_self)
  | fact => exact h.append_ne_panicked stamped_stateRow
  | requeues =>
    exact h.performUnit_ne_panicked stampedPlan_append_stateRow (answered_requeueNotificationsAt hp)
  | clear =>
    exact h.performUnit_ne_panicked stampedPlan_clearNotificationAt
      (answered_clearNotificationAt hp)
  | clears =>
    exact h.performUnit_ne_panicked stampedPlan_clearNotificationsAt answered_clearNotificationsAt
  | withdraw =>
    exact h.performUnit_ne_panicked stampedPlan_withdrawNotificationBeforeWrite
      (answered_withdrawNotificationBeforeWrite hp)
  | recover => exact map_ne_error h.recoverNotifications_ne_panicked

end MessageStore

/-! ## The representation invariant -/

theorem Reachable.messagesSnapshot (h : Reachable workspaceId p) (c : RecipientKey)
    (rs : Nat) (routes : Map RecipientKey MessageRecipientRoute) :
    if c.workspaceId = workspaceId then
      ∃ res, p.messagesSnapshot c rs routes = .ok res
    else p.messagesSnapshot c rs routes =
      .error (.workspaceMismatch workspaceId c.workspaceId) := by
  have hw := h.workspaceId_eq
  split
  · next hc =>
    obtain ⟨_, -, hre⟩ := h.coherent.messagesSnapshot (hc.trans hw.symm) routes
    obtain ⟨res, hr, -⟩ := hre rs
    exact ⟨res, hr⟩
  · next hc =>
    simp [MailboxProjection.messagesSnapshot, MailboxProjection.checkWorkspace, hw, hc]
    rfl

/-- The maps of every reachable projection agree, so every lookup the source expects to succeed
does. -/
theorem representation_invariant (h : Reachable workspaceId p) :
    (∀ r m s, p.mailboxIndex.lookup (r, m) = some s ↔
      ∃ mailbox entry, p.mailboxes.lookup r = some mailbox ∧ mailbox.lookup s = some entry ∧
        entry.recipient = r ∧ entry.messageId = m ∧ entry.seq = s) ∧
    (∀ r m s, p.mailboxIndex.lookup (r, m) = some s ↔
      ∃ line metadata, p.messages.lookup m = some line ∧ line.data = some (.metadata metadata) ∧
        line.seq = s ∧ r ∈ metadata.recipients) ∧
    (∀ sender key m digest, p.idempotencyIndex.lookup (sender, key) = some (m, digest) →
      ∃ line metadata, p.messages.lookup m = some line ∧ line.data = some (.metadata metadata) ∧
        metadata.sender = sender ∧ metadata.clientKey = some key) ∧
    (∀ r m record, p.notifications.lookup (r, m) = some record →
      (∃ entry, p.getEntry r m = some entry) ∧ record.recipient = r ∧ record.messageId = m ∧
        record.attemptId ∈ p.notificationAttempts) ∧
    (∀ key key' record record', p.notifications.lookup key = some record →
      p.notifications.lookup key' = some record' → record.attemptId = record'.attemptId →
        key = key') ∧
    (∀ replaying line m, p.prepareLineInner line replaying = .ok m →
      p.commitLine line m ≠ none) ∧
    (∀ (store : MessageStore) (op : StoreOperation), store.projection = p →
      store.writer.nextSeq = p.head + 1 → (store.operate op).2 ≠ .error .panicked) ∧
    (∀ r, ∃ items, p.listMailbox r = .ok items) ∧
    (∀ caller recentSettled routes m r,
      p.messagesSnapshot caller recentSettled routes ≠ .error (.entryNotFound m r) ∧
        p.messagesSnapshot caller recentSettled routes ≠ .error (.messageNotFound m)) := by
  have hp := h.coherent
  refine ⟨fun r m s => ?_, fun _ _ _ => hp.addressed, fun sender key m digest hk => ?_,
    fun r m record hrec => ?_, fun _ _ _ _ => hp.single, fun replaying line m hm => ?_,
    fun store op hst hn => ?_, hp.listMailbox, fun caller recentSettled routes m r => ?_⟩
  · constructor
    · intro hi
      obtain ⟨entry, he, hm⟩ := hp.found hi
      obtain ⟨hr, hs, -⟩ := hp.filed he
      obtain ⟨mailbox, hma, hl⟩ := bind_eq_some_iff.mp he
      exact ⟨mailbox, entry, hma, hl, hr, hm, hs⟩
    · rintro ⟨mailbox, entry, hma, hl, -, rfl, -⟩
      exact (hp.filed (bind_eq_some_iff.mpr ⟨mailbox, hma, hl⟩)).2.2
  · obtain ⟨line, metadata, hli, hda, hse, hc, -⟩ := hp.keyed.mp hk
    exact ⟨line, metadata, hli, hda, hse, hc⟩
  · obtain ⟨hr, hm, hi, his⟩ := hp.noted hrec
    exact ⟨ne_none_iff_exists'.mp (hp.getEntry_ne_none.mpr hi), hr, hm, his⟩
  · obtain ⟨q, hq, -⟩ := hp.apply hm
    rw [hq]
    exact some_ne_none q
  · subst hst
    exact Aligned.operate_ne_panicked ⟨hp, hn⟩ op
  · have hre := h.messagesSnapshot caller recentSettled routes
    split at hre
    · obtain ⟨res, hres⟩ := hre
      rw [hres]
      exact ⟨fun heq => (nomatch heq), fun heq => (nomatch heq)⟩
    · rw [hre]
      exact ⟨fun heq => (nomatch heq), fun heq => (nomatch heq)⟩

omit [DigestScheme] in
theorem sample_mailbox_read :
    ∃ p items,
      @replay constantDigests sampleWorkspace (sampleDaemon []).store.writer.lines = .ok p ∧
      p.head = 5 ∧ p.listMailbox sampleWorker.key = .ok items := by
  have hh : ((@replay constantDigests sampleWorkspace
      (sampleDaemon []).store.writer.lines).toOption.map head) = some 5 := by
    decide +kernel
  obtain ⟨p, hr, hh⟩ := exists_ok_of_toOption hh
  obtain ⟨-, -, -, -, -, -, -, hl, -⟩ := @representation_invariant constantDigests p _
    (@Reachable.replay _ _ constantDigests _ hr)
  obtain ⟨items, hi⟩ := hl sampleWorker.key
  exact ⟨p, items, hr, hh, hi⟩

end Cyclops
