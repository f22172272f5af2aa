import Cyclops.Daemon
import Cyclops.Mailbox.Advance

/-!
# Recovery after a restart

A restart finds attempts whose write had begun and whose outcome nobody recorded.

Result: `restart_recovers`.
-/

namespace Cyclops

open Checked FiniteMap MailboxProjection MessageStore List Option NotificationRecord LedgerWriter

def interrupted (state : NotificationState) : Bool :=
  state matches .writing | .staged | .submitting | .submitted | .submittedUnverified

/-! ## Recipients of records -/

namespace Board

/-- Records are about agents, and an entry is claimed by its own recipient. -/
structure Personal (b : Board) : Prop where
  agent : ∀ key, b.record key ≠ none → key.1.isAdmin = false
  claimant : ∀ key claimant at_, b.entry key = some (.claimed claimant at_) → claimant = key.1

variable {b : Board} {rp : Bool} {a : Action}

theorem start_of_record_act {key : EntryKey} {record : NotificationRecord}
    (hg : b.Guard rp a) (hn : b.record key = none)
    (held : (b.act a).record key = some record) : a = .start key record := by
  cases recorded_act hg held with
  | kept hk => cases hn.symm.trans hk
  | superseded hc => cases hn.symm.trans hc
  | started => rfl
  | moved | ended =>
    obtain ⟨c, hc, -⟩ := hg
    cases hn.symm.trans hc

theorem Personal.act (h : b.Personal) (hg : b.Guard rp a) : (b.act a).Personal where
  agent := by
    intro key held
    cases hc : b.record key with
    | some => exact h.agent key (by simp [hc])
    | none =>
      obtain ⟨record, hr⟩ := ne_none_iff_exists'.mp held
      cases start_of_record_act hg hc hr
      exact hg.2.2.1
  claimant := by
    intro key claimant at_ he
    cases entered_act hg he with
    | kept held => exact h.claimant key claimant at_ held
    | filed _ hs => cases hs
    | settled _ hse => exact hse.1
    | superseded _ hs => cases hs

end Board

/-! ## The transition of one attempt -/

variable {p q : MailboxProjection} {line : LedgerLine} {record : NotificationRecord}

def receipted (p : MailboxProjection) (record : NotificationRecord) : Prop :=
  (record.state = .submitted ∨ record.state = .submittedUnverified) ∧
    record.transport = .doorbell ∧ p.entryIsClaimed record.recipient record.messageId = true

instance : Decidable (receipted p record) :=
  inferInstanceAs (Decidable (_ ∧ _))

def recoveryFact (p : MailboxProjection) (record : NotificationRecord) : NotificationTransition :=
  if receipted p record then
    bareTransition record.messageId record.recipient record.attemptId .notified
  else
    { bareTransition record.messageId record.recipient record.attemptId
        .attentionRequired with cause := some .daemonRestart }

theorem recoverNotification_eq_append (store : MessageStore) (record : NotificationRecord)
    (now : Nat) :
    store.recoverNotification record now =
      store.appendNotificationTransitionFullAt (recoveryFact store.projection record) now now := by
  by_cases h : receipted store.projection record
  · rw [recoveryFact, if_pos h, recoverNotification]
    exact if_pos h
  · rw [recoveryFact, if_neg h, recoverNotification]
    exact if_neg h

theorem recoveryFact_names : (recoveryFact p record).recordVersion = canonicalRecordVersion ∧
    (recoveryFact p record).messageId = record.messageId ∧
    (recoveryFact p record).recipient = record.recipient ∧
    (recoveryFact p record).attemptId = record.attemptId := by
  unfold recoveryFact
  split <;> exact ⟨rfl, rfl, rfl, rfl⟩

structure Closes (p : MailboxProjection) (record closed : NotificationRecord) : Prop where
  attemptId : closed.attemptId = record.attemptId
  receipt : receipted p record → closed.state = .notified
  attention : ¬ receipted p record →
    closed.state = .attentionRequired ∧ closed.cause = some .daemonRestart

theorem closes_transition : Closes p record (transitionRecord line (recoveryFact p record) record) where
  attemptId := recoveryFact_names.2.2.2
  receipt := fun h => by
    rw [recoveryFact, if_pos h]
    rfl
  attention := fun h => by
    rw [recoveryFact, if_neg h]
    exact ⟨rfl, rfl⟩

theorem Closes.settled {c : NotificationRecord} (h : Closes p record c) :
    interrupted c.state = false := by
  by_cases hr : receipted p record
  · rw [h.receipt hr]
    rfl
  · rw [(h.attention hr).1]
    rfl

def SameEntries (p q : MailboxProjection) : Prop :=
  ∀ r m, q.getEntry r m = p.getEntry r m

theorem SameEntries.receipted_iff (h : SameEntries p q) : receipted q record ↔ receipted p record := by
  rw [receipted, receipted, entryIsClaimed, entryIsClaimed, h]

theorem SameEntries.closes (h : SameEntries p q) {c : NotificationRecord}
    (hc : Closes q record c) : Closes p record c where
  attemptId := hc.attemptId
  receipt := fun hr => hc.receipt (h.receipted_iff.mpr hr)
  attention := fun hn => hc.attention fun hr => hn (h.receipted_iff.mp hr)

theorem mem_unresolvedAfterRestart : record ∈ unresolvedAfterRestart p ↔
      record ∈ values p.notifications ∧ interrupted record.state = true :=
  mem_filter

variable [DigestScheme] {workspaceId : WorkspaceId}

theorem Reachable.personal (h : Reachable workspaceId p) : p.board.Personal :=
  h.board_invariant ⟨fun _ held => absurd rfl held, fun _ _ _ he => (nomatch he)⟩
    fun _ _ _ hb hg => hb.act hg

theorem Reachable.claimedByRecipient_iff (h : Reachable workspaceId p) {r : RecipientKey}
    {m : MessageId} : p.claimedByRecipient r m = true ↔ p.entryIsClaimed r m = true := by
  rw [← board_claimed, ← board_entry_claimed]
  constructor
  · rintro ⟨at_, he⟩
    exact ⟨r, at_, he⟩
  · rintro ⟨c, at_, he⟩
    cases h.personal.claimant _ _ _ he
    exact ⟨at_, he⟩

theorem Coherent.validateNotificationEnvelope (hp : Coherent p) {r : RecipientKey} {m : MessageId}
    (he : p.getEntry r m ≠ none) (ha : r.isAdmin = false)
    (hen : line.id = m.text ∧ line.sentFrom = "cyclopsd" ∧ line.sentTo = [r.text] ∧
      hasMessageFields line = false) :
    p.validateNotificationEnvelope line canonicalRecordVersion m r = .ok () := by
  obtain ⟨hk, hw⟩ := hp.stored_of_getEntry he
  obtain ⟨hid, hfr, hto, hf⟩ := hen
  simp [MailboxProjection.validateNotificationEnvelope, bind_eq_ok, hw, ha, hid, hfr, hto, hf, hk, he]

theorem Reachable.prepare_recovery (hp : Reachable workspaceId p)
    (held : p.notifications.lookup record.key = some record)
    (hi : interrupted record.state = true)
    (he : line.id = record.messageId.text ∧ line.sentFrom = "cyclopsd" ∧
      line.sentTo = [record.recipient.text] ∧ hasMessageFields line = false) :
    p.prepareNotificationTransition line (recoveryFact p record) false =
      .ok (.notification record.key (transitionRecord line (recoveryFact p record) record) false) := by
  have ha : record.recipient.isAdmin = false :=
    hp.personal.agent record.key (by simp [board, held])
  have hen : p.getEntry record.recipient record.messageId ≠ none := by
    obtain ⟨-, -, hf, -⟩ := hp.coherent.noted held
    exact hp.coherent.getEntry_ne_none.mpr hf
  have hv := hp.coherent.validateNotificationEnvelope hen ha he
  have hl : p.notifications.lookup (record.recipient, record.messageId) = some record := held
  unfold recoveryFact
  split
  · next hr =>
    simp only [prepareNotificationTransition, bareTransition, bind_eq_ok, hl]
    refine ⟨(), hv, (), ?_, (), rfl, (), rfl, (), rfl, (), rfl, rfl⟩
    rcases hr.1 with hs | hs <;>
      simp [checkTransitionEdge, bind_eq_ok, hs, notificationTransitionAllowed,
        NotificationState.canTransitionTo, NotificationTransition.isMailboxClose]
  · simp only [prepareNotificationTransition, bareTransition, bind_eq_ok, hl]
    refine ⟨(), hv, (), ?_, (), rfl, (), rfl, (), ?_, (), rfl, rfl⟩
    · revert hi
      cases hs : record.state <;>
        simp [checkTransitionEdge, bind_eq_ok, hs, notificationTransitionAllowed,
          NotificationState.canTransitionTo, NotificationTransition.isMailboxClose, interrupted]
    · revert hi
      cases hs : record.state <;>
        simp [checkTransitionCause, bind_eq_ok, hs, NotificationAttentionCause.validAfter,
          interrupted]

/-! ## One attempt after the other -/

structure MessageStore.Opened (store : MessageStore) (workspaceId : WorkspaceId) : Prop where
  reachable : Reachable workspaceId store.projection
  next : store.writer.nextSeq = store.projection.head + 1
  bound : store.writer.nextSeq < u64Bound

variable {store : MessageStore} {env : Env}

theorem opened_of_openJournal {bi : String} {rs : List LedgerLine}
    (h : openJournal workspaceId bi rs = .ok store) :
    store.Opened workspaceId := by
  have hre := replay_of_openJournal h
  simp only [openJournal, openStrict, bind_eq_ok, pure_eq_ok] at h
  obtain ⟨w, hw, projection, -, rfl⟩ := h
  cases hr : readFromStrict 1 rs with
  | error =>
    rw [hr] at hw
    cases hw
  | ok =>
    rw [hr] at hw
    cases hw
    have hb := bounded_of_readFromStrict (by decide) hr
    have hn := hr.symm.trans (readFromStrict_replay hre hb.2)
    exact ⟨.replay hre, Except.ok.inj hn, hb.1⟩

theorem MessageStore.perform_not_ready (h : ¬ store.writer.Ready env.io) {m : PreparedMutation}
    (hm : store.projection.prepareLine line = .ok m) {α : Type}
    (r : MailboxProjection → Option α) :
    ∃ error, (store.perform (.ok (.append line r)) env).2 = .error (.ledger error) := by
  obtain ⟨w, error, ha⟩ := append_of_not_ready h line env.now
  refine ⟨error, ?_⟩
  simp only [perform, append, hm, ha]

structure ClosesIn (store store' : MessageStore) (record closed : NotificationRecord) : Prop where
  closes : Closes store.projection record closed
  notifications : store'.projection.notifications =
    store.projection.notifications.insert record.key closed
  entries : SameEntries store.projection store'.projection

theorem MessageStore.Opened.recover_one (h : store.Opened workspaceId)
    (held : store.projection.notifications.lookup record.key = some record)
    (hi : interrupted record.state = true) :
    let performed := store.perform (.ok (store.recoverNotification record env.now)) env
    (∃ e, performed.2 = .error (.ledger e)) ∨
      ∃ c, performed.2 = .ok c ∧ performed.1.Opened workspaceId ∧
        ClosesIn store performed.1 record c := by
  have ha : store.Aligned := ⟨h.reachable.coherent, h.next⟩
  have hb := h.bound
  obtain ⟨-, hme, hr, -⟩ := @recoveryFact_names store.projection record
  let fact := recoveryFact store.projection record
  let line := store.stateRow fact.messageId.text (stamp env.now env.now) "cyclopsd"
    [fact.recipient.text] (.notification (.notificationTransition fact))
  have hm : store.projection.prepareLine line =
      .ok (.notification record.key (transitionRecord line fact record) false) := by
    simp only [prepareLine, prepareLineInner, bind_eq_ok, refuseIf_eq_ok]
    exact ⟨(), not_le.mpr (h.next ▸ hb), (), not_not.mpr h.next,
      h.reachable.prepare_recovery held hi ⟨congrArg MessageId.text hme, rfl,
          congrArg (fun r => [RecipientKey.text r]) hr, rfl⟩⟩
  by_cases hre : store.writer.Ready env.io
  case neg =>
    rw [recoverNotification_eq_append]
    exact .inl (perform_not_ready hre hm _)
  obtain ⟨q, applies, hpe⟩ := ha.perform_ready (store.stamped_stateRow ..) hre hm
  obtain ⟨mutation, hmu, hc⟩ := applies_iff.mp applies
  cases hm.symm.trans hmu
  have hq : q = (store.projection.advanced line).commitNotification line record.key
      (transitionRecord line fact record) false := (some.inj hc).symm
  rw [commitNotification, trackBarrier_frame] at hq
  have hf : q.notification fact.recipient fact.messageId =
      some (transitionRecord line fact record) := by
    rw [notification, hq, show fact.recipient = _ from hr, show fact.messageId = _ from hme]
    exact AList.lookup_insert _
  have hp : store.perform (.ok (store.recoverNotification record env.now)) env =
      (⟨store.writer.wrote line, q⟩, .ok (transitionRecord line fact record)) := by
    rw [recoverNotification_eq_append]
    refine (hpe fun p => p.notification fact.recipient fact.messageId).trans ?_
    rw [hf]
    rfl
  rw [hp]
  obtain ⟨-, hh, -⟩ := applies.seq
  refine .inr ⟨_, rfl, ⟨.apply h.reachable applies, ?_, hre.bound⟩, closes_transition, ?_, ?_⟩
  · change store.writer.nextSeq + 1 = q.head + 1
    rw [hh]
    rfl
  · rw [hq]
    rfl
  · rw [hq]
    exact fun r m => rfl

structure ClosesAll (store store' : MessageStore) (records : List NotificationRecord) : Prop where
  closed : ∀ record ∈ records, ∃ closed,
    store'.projection.notifications.lookup record.key = some closed ∧
      Closes store.projection record closed
  kept : ∀ key, key ∉ records.map NotificationRecord.key →
    store'.projection.notifications.lookup key = store.projection.notifications.lookup key

theorem MessageStore.Opened.recover_all {rs : List NotificationRecord}
    {env : NotificationAttemptId → Env} (h : store.Opened workspaceId)
    (held : ∀ record ∈ rs, store.projection.notifications.lookup record.key = some record)
    (hi : ∀ record ∈ rs, interrupted record.state = true)
    (hd : (rs.map key).Nodup) :
    let r := recoverNotifications env rs store
    (∃ e, r.2 = .error (.ledger e)) ∨ (∃ c, r.2 = .ok c) ∧ ClosesAll store r.1 rs := by
  induction rs generalizing store with
  | nil => exact .inr ⟨⟨[], rfl⟩, fun _ hm => absurd hm not_mem_nil, fun _ _ => rfl⟩
  | cons first rest ih =>
    obtain ⟨hf, hre⟩ := forall_mem_cons.mp held
    obtain ⟨hst, hs⟩ := forall_mem_cons.mp hi
    obtain ⟨hn, hdi⟩ := nodup_cons.mp hd
    have ho := @recover_one _ _ _ store (env first.attemptId) h hf hst
    simp only [recoverNotifications]
    generalize store.perform (.ok (store.recoverNotification first (env first.attemptId).now))
      (env first.attemptId) = performed at ho
    obtain ⟨m, ans⟩ := performed
    rcases ho with ⟨e, rfl⟩ | ⟨c, rfl, hop, ho⟩
    · exact .inl ⟨e, rfl⟩
    have hke : ∀ key, key ≠ first.key → m.projection.notifications.lookup key =
        store.projection.notifications.lookup key := by
      intro key hne
      rw [ho.notifications, AList.lookup_insert_ne hne]
    have hr := ih hop (fun record hm => by
        rw [hke record.key fun heq => hn (heq ▸ mem_map_of_mem hm)]
        exact hre record hm)
      hs hdi
    simp only at hr ⊢
    generalize recoverNotifications env rest m = r at hr
    obtain ⟨st', answers⟩ := r
    rcases hr with ⟨e, rfl⟩ | ⟨⟨os, rfl⟩, ha⟩
    · exact .inl ⟨e, rfl⟩
    refine .inr ⟨⟨c :: os, rfl⟩, forall_mem_cons.mpr ⟨⟨c, ?_, ho.closes⟩,
      fun record hm => ?_⟩, fun key hk => ?_⟩
    · rw [ha.kept first.key hn, ho.notifications, AList.lookup_insert]
    · obtain ⟨c', hl, hc⟩ := ha.closed record hm
      exact ⟨c', hl, ho.entries.closes hc⟩
    · rw [map_cons, mem_cons, not_or] at hk
      rw [ha.kept key hk.2, hke key hk.1]

/-! ## Every attempt a restart finds -/

theorem Coherent.lookup_key (hp : Coherent p) (hm : record ∈ values p.notifications) :
    p.notifications.lookup record.key = some record := by
  obtain ⟨⟨r, m⟩, held⟩ := mem_values.mp hm
  obtain ⟨rfl, rfl, -⟩ := hp.noted held
  exact held

theorem Coherent.nodup_keys (hp : Coherent p) : ((values p.notifications).map key).Nodup := by
  refine pairwise_map.mpr (pairwise_values ?_)
  intro key record key' r' held he' hne heq
  obtain ⟨hr, hm, -⟩ := hp.noted held
  obtain ⟨hr', hm', -⟩ := hp.noted he'
  exact hne (Prod.ext (hr.symm.trans ((congrArg Prod.fst heq).trans hr'))
    (hm.symm.trans ((congrArg Prod.snd heq).trans hm')))

theorem MessageStore.Opened.recover (h : store.Opened workspaceId) (o : IterationOrder)
    (env : NotificationAttemptId → Env) :
    let r := store.recoverNotificationsAfterRestart o env
    (∃ e, r.2 = .error (.ledger e)) ∨ (∃ c, r.2 = .ok c) ∧
        ClosesAll store r.1 (unresolvedAfterRestart store.projection) := by
  have hp := h.reachable.coherent
  have hpe := o.perm (unresolvedAfterRestart store.projection)
  have hc := @recover_all _ _ store _ env h
    (fun record hm => hp.lookup_key (mem_unresolvedAfterRestart.mp (hpe.mem_iff.mp hm)).1)
    (fun record hm => (mem_unresolvedAfterRestart.mp (hpe.mem_iff.mp hm)).2)
    ((hpe.map _).nodup_iff.mpr (hp.nodup_keys.sublist (filter_sublist.map _)))
  refine hc.imp_right fun hok => ⟨hok.1, ?_, fun key hk => ?_⟩
  · exact fun record hm => hok.2.closed record (hpe.mem_iff.mpr hm)
  · exact hok.2.kept key fun hm => hk ((hpe.map _).mem_iff.mp hm)

theorem ClosesAll.settled {st' : MessageStore} (hp : Coherent store.projection)
    (h : ClosesAll store st' (unresolvedAfterRestart store.projection))
    {key : EntryKey} (held : st'.projection.notifications.lookup key = some record) :
    interrupted record.state = false := by
  by_cases hm : key ∈ (unresolvedAfterRestart store.projection).map NotificationRecord.key
  · obtain ⟨bef, hb, rfl⟩ := mem_map.mp hm
    obtain ⟨c, hc, hcl⟩ := h.closed bef hb
    cases hc.symm.trans held
    exact hcl.settled
  · have hs := (h.kept key hm).symm.trans held
    rw [← Bool.not_eq_true]
    intro hi
    obtain ⟨r, m⟩ := key
    obtain ⟨rfl, rfl, -⟩ := hp.noted hs
    exact hm (mem_map_of_mem (mem_unresolvedAfterRestart.mpr ⟨mem_values.mpr ⟨_, hs⟩, hi⟩))

/-- Recovery returns when no append fails; then no record is interrupted, the others are as they
were, and a second recovery does nothing. -/
theorem restart_recovers (workspaceId : WorkspaceId) (bootId : String) (records : List LedgerLine)
    (store : MessageStore) (hopen : openJournal workspaceId bootId records = .ok store)
    (order : MessageStore.IterationOrder) (env : NotificationAttemptId → Env)
    (acknowledged : ∀ error,
      (store.recoverNotificationsAfterRestart order env).2 ≠ .error (.ledger error)) :
    let recovered := store.recoverNotificationsAfterRestart order env
    (∃ closed, recovered.2 = .ok closed) ∧
    (∀ r m record, recovered.1.projection.notification r m = some record →
      interrupted record.state = false) ∧
    (∀ r m record, store.projection.notification r m = some record →
      interrupted record.state = true →
      ∃ closed, recovered.1.projection.notification r m = some closed ∧
        closed.attemptId = record.attemptId ∧
        if (record.state = .submitted ∨ record.state = .submittedUnverified) ∧
            record.transport = .doorbell ∧ store.projection.claimedByRecipient r m = true
        then closed.state = .notified
        else closed.state = .attentionRequired ∧ closed.cause = some .daemonRestart) ∧
    (∀ r m, (∀ record, store.projection.notification r m = some record →
        interrupted record.state = false) →
      recovered.1.projection.notification r m = store.projection.notification r m) ∧
    ∀ order' env', recovered.1.recoverNotificationsAfterRestart order' env' =
      (recovered.1, .ok []) := by
  have h := opened_of_openJournal hopen
  have hp := h.reachable.coherent
  intro recovered
  obtain ⟨error, he⟩ | ⟨hok, ha⟩ := h.recover order env
  · exact absurd he (acknowledged error)
  have hs : ∀ r m record, recovered.1.projection.notification r m = some record →
      interrupted record.state = false := fun r m record held => ha.settled hp held
  refine ⟨hok, hs, fun r m record held hi => ?_, fun r m hq => ?_, fun order' env' => ?_⟩
  · obtain ⟨rfl, rfl, -⟩ := hp.noted held
    obtain ⟨closed, hcl, hc⟩ := ha.closed record
      (mem_unresolvedAfterRestart.mpr ⟨mem_values.mpr ⟨_, held⟩, hi⟩)
    refine ⟨closed, hcl, hc.attemptId, ?_⟩
    simp only [h.reachable.claimedByRecipient_iff]
    split
    · next hr => exact hc.receipt hr
    · next hn => exact hc.attention hn
  · refine ha.kept (r, m) fun hm => ?_
    obtain ⟨record, hre, hk⟩ := mem_map.mp hm
    obtain ⟨hcu, hi⟩ := mem_unresolvedAfterRestart.mp hre
    have held := hk ▸ hp.lookup_key hcu
    exact absurd hi (by simp [hq record held])
  · have hn : unresolvedAfterRestart recovered.1.projection = [] := by
      refine filter_eq_nil_iff.mpr fun record hm => ?_
      obtain ⟨⟨r, m⟩, held⟩ := mem_values.mp hm
      exact Bool.not_eq_true _ ▸ hs r m record held
    have hpe := order'.perm []
    rw [recoverNotificationsAfterRestart, hn, perm_nil.mp hpe]
    rfl

def listOrder : MessageStore.IterationOrder where
  apply := id
  perm := fun _ => .refl _

omit [DigestScheme] in
theorem sample_restart :
    letI := constantDigests
    ∃ store closed, openJournal sampleWorkspace "next" (sampleDaemon []).store.writer.lines =
        .ok store ∧
      (store.recoverNotificationsAfterRestart listOrder fun _ => ⟨6, .written⟩).1.projection.notification
        sampleWorker.key sampleMessage = some closed ∧ closed.state = .attentionRequired := by
  let := constantDigests
  have hf : ((openJournal sampleWorkspace "next"
      (sampleDaemon []).store.writer.lines).toOption.map fun store =>
        ((store.recoverNotificationsAfterRestart listOrder fun _ => ⟨6, .written⟩).2.isOk,
          (store.projection.notification sampleWorker.key sampleMessage).map
            state)) = some (true, some .writing) := by
    decide +kernel
  obtain ⟨store, ho, hf⟩ := exists_ok_of_toOption hf
  obtain ⟨hok, hs⟩ := Prod.ext_iff.mp hf
  obtain ⟨record, held, hw⟩ := map_eq_some_iff.mp hs
  obtain ⟨-, -, hc, -⟩ := restart_recovers sampleWorkspace "next" _ store ho listOrder
    (fun _ => ⟨6, .written⟩) (fun e her => by
      simp only [her] at hok
      cases hok)
  obtain ⟨closed, hh, -, he⟩ := hc _ _ record held (by rw [hw]; rfl)
  rw [if_neg (by simp [hw])] at he
  exact ⟨store, closed, ho, hh, he.1⟩

end Cyclops
