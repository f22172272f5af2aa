import Cyclops.Daemon.Claims
import Cyclops.Mailbox.Recovery

/-!
# The next wake

The scheduler first looks for a doorbell whose message its recipient has already claimed, and only
then for the first entry of the mailbox that needs a wake.

Result: `prepare_wakes_iff`.
-/

namespace Cyclops

open Checked FiniteMap MailboxProjection MailboxService MessageStore List Option MailboxEntryState

variable {p : MailboxProjection} {line : LedgerLine} {workspaceId : WorkspaceId}

/-! ## Claimed doorbells -/

variable {rs : List NotificationRecord} {best : Option NotificationRecord}
  {attemptId : NotificationAttemptId}

theorem foldl_earlierStarted_ne_none (h : best ≠ none) : rs.foldl earlierStarted best ≠ none := by
  refine Runs.foldl_invariant (fun best => best ≠ none) (fun best record _ => ?_) h
  unfold earlierStarted
  split
  · exact nofun
  · split <;> exact nofun

variable {record : NotificationRecord} {r : RecipientKey} {store : MessageStore} {m : MessageId}

theorem mem_of_foldl_earlierStarted (h : rs.foldl earlierStarted best = some record) :
    best = some record ∨ record ∈ rs := by
  induction rs generalizing best with
  | nil => exact .inl h
  | cons first rest ih =>
    rcases ih h with heq | hm
    · unfold earlierStarted at heq
      split at heq
      · exact .inr (mem_cons.mpr (.inl (some.inj heq).symm))
      · split at heq
        · exact .inr (mem_cons.mpr (.inl (some.inj heq).symm))
        · exact .inl heq
    · exact .inr (mem_cons_of_mem _ hm)

structure ClaimedBeforeSubmit (p : MailboxProjection) (r : RecipientKey)
    (record : NotificationRecord) : Prop where
  recipient : record.recipient = r
  doorbell : record.transport = .doorbell
  waits : preSubmitState record.state = true
  claimed : p.entryIsClaimed r record.messageId = true

theorem mem_claimed_filter : record ∈ (values p.notifications).filter (fun record =>
      record.recipient = r ∧ record.transport = .doorbell ∧ preSubmitState record.state = true ∧
        p.entryIsClaimed r record.messageId = true) ↔
    (∃ key, p.notifications.lookup key = some record) ∧ ClaimedBeforeSubmit p r record := by
  simp only [mem_filter, mem_values, decide_eq_true_eq]
  exact and_congr_right fun _ =>
    ⟨fun ⟨a, b, c, d⟩ => ⟨a, b, c, d⟩, fun ⟨a, b, c, d⟩ => ⟨a, b, c, d⟩⟩

theorem claimedOperatorNotification_spec (h : p.claimedOperatorNotification r = some record) :
    (∃ key, p.notifications.lookup key = some record) ∧ ClaimedBeforeSubmit p r record :=
  mem_claimed_filter.mp ((mem_of_foldl_earlierStarted h).resolve_left nofun)

theorem claimedOperatorNotification_ne_none {key : EntryKey}
    (held : p.notifications.lookup key = some record) (h : ClaimedBeforeSubmit p r record) :
    p.claimedOperatorNotification r ≠ none := by
  have hm := mem_claimed_filter.mpr ⟨⟨key, held⟩, h⟩
  unfold claimedOperatorNotification
  cases hl : (values p.notifications).filter _ with
  | nil =>
    rw [hl] at hm
    cases hm
  | cons first => 
    rw [foldl_cons]
    exact foldl_earlierStarted_ne_none (some_ne_none first)

/-! ## Entries next in line -/

/-- An agent whose oldest entry without an attempt is next in line. -/
structure NextInLine (p : MailboxProjection) (r : RecipientKey) (m : MessageId) : Prop where
  agent : r.isAdmin = false
  idle : ∀ record ∈ values p.notifications, record.recipient = r → inFlight record.state = false
  fresh : p.notification r m = none
  oldest : ∃ before entry after, p.getMailbox r = before ++ entry :: after ∧
    entry.messageId = m ∧ entry.state.isPending = true ∧
    ∀ earlier ∈ before, earlier.state.isPending = true →
      p.notificationWithdrawnByOperator r earlier.messageId = true

theorem inFlight_of_unsettledWake (h : ModernRecord record)
    (hu : unsettledWake record.state = true) :
    inFlight record.state = true := by
  have hm := h.state
  revert hm hu
  cases record.state <;> decide

theorem blocked_of_preSubmit (h : ModernRecord record) (hi : inFlight record.state = false)
    (hw : preSubmitState record.state = true) :
    record.state = .blockedPreWrite := by
  have hm := h.state
  revert hm hi hw
  cases record.state <;> decide

theorem NextInLine.firstActionable [DigestScheme] (h : NextInLine store.projection r m)
    (hp : Coherent store.projection) (hmo : store.projection.board.Modern) :
    firstActionableNotificationMessageId store r = some m := by
  obtain ⟨before, entry, after, hm, rfl, hpe, hb⟩ := h.oldest
  refine map_eq_some_iff.mpr ⟨entry, find?_eq_some_iff_append.mpr
    ⟨?_, before, after, hm, fun e hme => ?_⟩, rfl⟩
  · cases hs : entry.state with
    | pending =>
      simp [actionable, hs, notificationWithdrawnByOperator, h.fresh]
    | _ => simp [hs, isPending] at hpe
  · have hw := hb e hme
    cases hs : e.state with
    | pending =>
      simp [actionable, hs, hw (by simp [hs, isPending])]
    | claimed =>
      cases hr : store.projection.notification r e.messageId with
      | none => simp [actionable, hs, hr]
      | some record =>
        have hse : unsettledWake record.state = false := by
          by_contra hu
          have hf := inFlight_of_unsettledWake (hmo (r, e.messageId) record hr) (by simpa using hu)
          exact absurd hf (by
            simp [h.idle record (mem_values.mpr ⟨_, hr⟩) (hp.noted hr).1])
        simp [actionable, hs, hr, hse]
    | _ => simp [actionable, hs]

variable [DigestScheme]

/-! ## Queueing the wake -/

theorem Coherent.prepareTransition_queued (hp : Coherent p) (ha : r.isAdmin = false)
    (hpe : p.entryIsPending r m = true) (hn : p.notification r m = none)
    (hf : attemptId ∉ p.notificationAttempts)
    (hen : line.id = m.text ∧ line.sentFrom = "cyclopsd" ∧ line.sentTo = [r.text] ∧
      hasMessageFields line = false) :
    p.prepareNotificationTransition line (bareTransition m r attemptId .queued) false =
      .ok (.notification (r, m) (queuedRecord line attemptId m r) true) := by
  have he := getEntry_of_pending hpe
  obtain ⟨e, hg⟩ := ne_none_iff_exists'.mp he
  have hs : e.state.isPending = true := by
    simpa [entryIsPending, hg] using hpe
  have hl : p.notifications.lookup (r, m) = none := hn
  have hr : p.requirePendingEntry r m = .ok () := by
    simp [requirePendingEntry, bind_eq_ok, hg, hs]
  simp only [prepareNotificationTransition, bareTransition, bind_eq_ok]
  refine ⟨(), hp.validateNotificationEnvelope he ha hen, ?_⟩
  rw [hl]
  simp only [bind_eq_ok]
  exact ⟨(), rfl, (), rfl, (), rfl, (), rfl, (), rfl, (), hr, (), refuseIf_eq_ok.mpr hf, rfl⟩

theorem MessageStore.Aligned.perform_queueNotification (h : store.Aligned) {env : Env}
    (hr : store.writer.Ready env.io) (ha : r.isAdmin = false)
    (hp : store.projection.entryIsPending r m = true)
    (hn : store.projection.notification r m = none)
    (hf : attemptId ∉ store.projection.notificationAttempts) :
    ∃ record, (store.perform (.ok ((store.queueNotification m r attemptId env.now).map some))
        env).2 = .ok (some record) ∧
      record.messageId = m ∧ record.recipient = r ∧ record.attemptId = attemptId := by
  let line := store.stateRow m.text (stamp env.now env.now) "cyclopsd" [r.text]
    (.notification (.notificationTransition (bareTransition m r attemptId .queued)))
  have hbo : ¬ u64Bound ≤ store.projection.head + 1 := by
    have := hr.bound
    rw [h.next] at this
    omega
  have hm : store.projection.prepareLine line =
      .ok (.notification (r, m) (queuedRecord line attemptId m r) true) := by
    simp only [prepareLine, prepareLineInner, bind_eq_ok, refuseIf_eq_ok]
    exact ⟨(), hbo, (), not_not.mpr h.next,
      h.coherent.prepareTransition_queued ha hp hn hf ⟨rfl, rfl, rfl, rfl⟩⟩
  obtain ⟨q, applies, hpe⟩ := h.perform_ready (store.stamped_stateRow ..) hr hm
  have hh : q.board.record (r, m) = some (queuedRecord line attemptId m r) := by
    obtain ⟨mutation, hmu, -, hb⟩ := applies.board h.coherent
    cases hm.symm.trans hmu
    simp [hb, PreparedMutation.actions, Board.act, Board.hold]
  refine ⟨queuedRecord line attemptId m r, ?_, rfl, rfl, rfl⟩
  refine (congrArg Prod.snd (hpe fun p => (p.notification r m).map some)).trans ?_
  rw [show q.notification r m = _ from hh]
  rfl

theorem NextInLine.prepareOldestNotification (h : NextInLine store.projection r m)
    (hp : Coherent store.projection) (hm : store.projection.board.Modern)
    (attemptId : NotificationAttemptId) (now : Nat) :
    prepareOldestNotification store r attemptId now =
      match store.projection.claimedOperatorNotification r with
      | some record => .answer (resumable record)
      | none => (store.queueNotification m r attemptId now).map some := by
  unfold MailboxService.prepareOldestNotification
  cases store.projection.claimedOperatorNotification r with
  | none => simp only [h.agent, h.firstActionable hp hm, h.fresh, Bool.false_eq_true, if_false]
  | some => simp only [h.agent, Bool.false_eq_true, if_false]

/-- An entry next in line gets its wake, unless a stopped doorbell of a claimed message is in the
way. -/
theorem prepare_wakes_iff (workspaceId : WorkspaceId) (bootId : String) (ops : List Operation)
    {r : RecipientKey} {m : MessageId} {attemptId : NotificationAttemptId} {env : Env} :
    let store := ((Daemon.start workspaceId bootId).run ops).store
    NextInLine store.projection r m → attemptId ∉ store.projection.notificationAttempts →
    store.writer.Ready env.io →
    ((∃ record, (store.perform (.ok (prepareOldestNotification store r attemptId env.now)) env).2 =
          .ok (some record) ∧
        record.messageId = m ∧ record.recipient = r ∧ record.attemptId = attemptId) ↔
      ¬ ∃ m' record, store.projection.notification r m' = some record ∧
        store.projection.entryIsClaimed r m' = true ∧
        record.transport = .doorbell ∧ record.state = .blockedPreWrite) := by
  intro store hn hf hre
  let p := store.projection
  have hs : store.Sound Emits workspaceId := Daemon.sound_run workspaceId bootId ops
  have hp : Coherent p := hs.reachable.coherent
  have hmo : p.board.Modern := hs.journal.modern
  rw [hn.prepareOldestNotification hp hmo]
  cases hc : store.projection.claimedOperatorNotification r with
  | none =>
    have hpe : p.entryIsPending r m = true := by
      obtain ⟨b, entry, after, hma, rfl, hst, -⟩ := hn.oldest
      have he := hp.mem_getMailbox.mp (hma ▸ by simp : entry ∈ p.getMailbox r)
      simpa [entryIsPending, he] using hst
    refine iff_of_true (hs.aligned.perform_queueNotification hre hn.agent hpe hn.fresh hf) ?_
    rintro ⟨m', record, held, hcl, hdo, hbl⟩
    obtain ⟨hr, hm, -⟩ := hp.noted held
    exact claimedOperatorNotification_ne_none held ⟨hr, hdo, by rw [hbl]; rfl, hm ▸ hcl⟩ hc
  | some record =>
    -- Nothing is under way, so what is claimed and waits is stopped.
    obtain ⟨⟨key, held⟩, hb⟩ := claimedOperatorNotification_spec hc
    obtain ⟨hr, hm, -⟩ := hp.noted held
    have hk : key = (r, record.messageId) := Prod.ext (hr.symm.trans hb.recipient) hm.symm
    subst hk
    have hbl := blocked_of_preSubmit (hmo _ _ held)
      (hn.idle record (mem_values.mpr ⟨_, held⟩) hb.recipient) hb.waits
    refine iff_of_false ?_ (not_not.mpr
      ⟨record.messageId, record, held, hb.claimed, hb.doorbell, hbl⟩)
    rintro ⟨w, hw, -⟩
    have hno : resumable record = none := by simp [resumable, hbl]
    have : some w = resumable record := by
      simpa using (Except.ok.inj hw).symm
    rw [hno] at this
    cases this


def secondTaskWaits (store : MessageStore) : Prop :=
  NextInLine store.projection sampleWorker.key sampleMessage' ∧
    sampleAttempt' ∉ store.projection.notificationAttempts ∧ store.writer.Ready .written

omit [DigestScheme] in
theorem secondTaskWaits_of_facts (h : (∀ record ∈ values store.projection.notifications,
        record.recipient = sampleWorker.key → inFlight record.state = false) ∧
      store.projection.notification sampleWorker.key sampleMessage' = none ∧
      store.projection.getMailbox sampleWorker.key =
        [⟨sampleMessage, sampleWorker.key, .claimed sampleWorker.key 6, 1, 1⟩,
          ⟨sampleMessage', sampleWorker.key, .pending, 2, 2⟩] ∧
      sampleAttempt' ∉ store.projection.notificationAttempts ∧
      store.writer.writerSealed = false ∧ store.writer.writeStateUnknown = false ∧
      store.writer.nextSeq + 1 < u64Bound) : secondTaskWaits store := by
  obtain ⟨hi, hf, hm, ha, hs, hk, hb⟩ := h
  exact ⟨⟨rfl, hi, hf, [_], _, [], hm, rfl, rfl, by simp [isPending]⟩, ha, ⟨hs, hk, hb, rfl⟩⟩

omit [DigestScheme] in
theorem second_task_woken :
    let store := (sampleDaemon claimThenNotified).store
    ∃ record, (@MessageStore.perform constantDigests _ store
      (.ok (prepareOldestNotification store sampleWorker.key sampleAttempt' 9))
        ⟨9, .written⟩).2 = .ok (some record) ∧ record.messageId = sampleMessage' := by
  obtain ⟨hn, hf, hr⟩ : secondTaskWaits (sampleDaemon claimThenNotified).store :=
    secondTaskWaits_of_facts (by decide +kernel)
  have hu : ∀ record ∈ values (sampleDaemon claimThenNotified).store.projection.notifications,
      record.state ≠ .blockedPreWrite := by
    decide +kernel
  unfold sampleDaemon at hn hf hr hu ⊢
  have hi := @prepare_wakes_iff constantDigests sampleWorkspace "boot"
    (sampleOps ++ claimThenNotified) sampleWorker.key sampleMessage' sampleAttempt' ⟨9, .written⟩
  obtain ⟨record, hre, hm, -⟩ := (hi hn hf hr).mpr fun ⟨_, record, held, _, _, hb⟩ =>
      hu record (mem_values.mpr ⟨_, held⟩) hb
  exact ⟨record, hre, hm⟩

omit [DigestScheme] in
/-- A stopped wake of a claimed task hides the second task from the scheduler. -/
theorem second_task_starved :
    let store := (sampleDaemon claimThenUnwritten).store
    secondTaskWaits store ∧
      (@MessageStore.perform constantDigests _ store
        (.ok (prepareOldestNotification store sampleWorker.key sampleAttempt' 9))
          ⟨9, .written⟩).2.toOption = some none :=
  ⟨secondTaskWaits_of_facts (by decide +kernel), by decide +kernel⟩

end Cyclops
