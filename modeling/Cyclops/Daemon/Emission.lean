import Cyclops.Daemon
import Cyclops.Mailbox.Advance
import Cyclops.Mailbox.Live

/-!
# What the daemon appends

Every operation of the daemon appends rows of the current kinds only, and each of them where it has
checked what the row needs.

Results: `Daemon.plan_emitted`, `Daemon.sound_run`, `Daemon.recorded_stays`.
-/

namespace Cyclops

open Checked FiniteMap MessageStore MailboxService Option Plan Except NotificationContext

/-! ## Plans without their answers -/

variable {α : Type} {line : LedgerLine}

theorem Plan.map_eq_append {β : Type} {f : α → β} {plan : Plan α}
    {result : MailboxProjection → Option β} (h : plan.map f = .append line result) :
    ∃ r', plan = .append line r' := by
  cases plan with
  | answer => cases h
  | append line' r' =>
    cases h
    exact ⟨r', rfl⟩

variable {plan : Except Failure (Plan α)}

theorem discardAnswer_eq_append {result : MailboxProjection → Option Unit}
    (h : discardAnswer plan = .ok (.append line result)) :
    ∃ r', plan = .ok (.append line r') := by
  cases plan with
  | error => cases h
  | ok =>
    obtain ⟨r', rfl⟩ := map_eq_append (ok.inj h)
    exact ⟨r', rfl⟩

theorem discardAnswer_eq_ok {p : Plan Unit} (h : discardAnswer plan = .ok p) :
    ∃ plan', plan = .ok plan' ∧ p = plan'.map fun _ => () := by
  cases plan with
  | error => cases h
  | ok plan' => exact ⟨plan', rfl, (ok.inj h).symm⟩

theorem MessageStore.perform_discardAnswer [DigestScheme] (s : MessageStore)
    (plan : Except Failure (Plan α)) (env : Env) :
    (s.perform (discardAnswer plan) env).1 = (s.perform plan env).1 := by
  match plan with
  | .error e => rfl
  | .ok (.answer v) => rfl
  | .ok (.append line result) =>
    simp only [discardAnswer, Except.map, map, perform]
    split <;> rfl

def TransitionRow (store : MessageStore) (fact : NotificationTransition) (line : LedgerLine) :
    Prop :=
  store.Stamped line ∧ line.data = some (.notification (.notificationTransition fact))

theorem transitionRow_append {s : MessageStore} {fact : NotificationTransition} {ts now : Nat}
    {result : MailboxProjection → Option NotificationRecord}
    (h : s.appendNotificationTransitionFullAt fact ts now = .append line result) :
    TransitionRow s fact line := by
  cases h
  exact ⟨stamped_stateRow, rfl⟩

/-! ## Workers -/

namespace NotificationContext

variable {ctx : NotificationContext} {st : MessageStore} {now : Nat}

def Owned (context : NotificationContext) (p : MailboxProjection) (current : NotificationRecord) :
    Prop :=
  p.notification context.recipient context.messageId = some current ∧
    context.owns current = true

variable {current : NotificationRecord}

theorem ownedRecord_eq_ok : ctx.ownedRecord st = .ok current ↔ ctx.Owned st.projection current := by
  simp only [ownedRecord, bind_eq_ok, orRefuse_eq_ok, refuseIf_eq_ok, pure_eq_ok, exists_const,
    Bool.not_eq_false]
  constructor
  · rintro ⟨_, h, ho, rfl⟩
    exact ⟨h, ho⟩
  · rintro ⟨h, ho⟩
    exact ⟨current, h, ho, rfl⟩

def Records (context : NotificationContext) (p : MailboxProjection) (step : WorkerStep)
    (fact : NotificationTransition) : Prop :=
  match step with
  | .recordGating =>
    fact.state = .gating ∧ p.entryIsPending context.recipient context.messageId = true ∧
      ∃ current, context.Owned p current ∧ current.state = .queued
  | .recordWriting _ _ _ _ _ _ | .recordWritingRaw =>
    fact.state = .writing ∧ p.entryIsPending context.recipient context.messageId = true ∧
      ∃ current, context.Owned p current ∧ current.state = .gating
  | .recordSubmitted => fact.state = .submitted
  | .recordSubmittedUnverified => fact.state = .submittedUnverified
  | .recordNotified _ | .recordMailboxNotified | .settleSubmittedClaim => fact.state = .notified
  | .recordAttention _ => fact.state = .attentionRequired
  | .recordPreWriteBlock _ _ _ =>
    fact.state = .blockedPreWrite ∧ ∃ current, context.Owned p current ∧ current.state = .gating
  | .recordPasteCommandUnwritten =>
    fact.state = .blockedPreWrite ∧ ∃ current, context.Owned p current ∧ current.state = .writing

def Names (context : NotificationContext) (fact : NotificationTransition) : Prop :=
  fact.recipient = context.recipient ∧ fact.messageId = context.messageId ∧
    fact.attemptId = context.attemptId

theorem advanceLocked_append {s : NotificationState} {b : Option NotificationBinding}
    {c : Option NotificationAttentionCause}
    {result : MailboxProjection → Option NotificationRecord}
    (h : ctx.advanceLocked st s b c now = .ok (.append line result)) :
    ∃ fact, TransitionRow st fact line ∧ ctx.Names fact ∧ fact.state = s := by
  simp only [advanceLocked, bind_eq_ok, pure_eq_ok] at h
  obtain ⟨_, -, h⟩ := h
  exact ⟨_, transitionRow_append h, ⟨rfl, rfl, rfl⟩, rfl⟩

theorem ownedGating_eq_ok (h : ctx.ownedGating st = .ok current) :
    st.projection.entryIsPending ctx.recipient ctx.messageId = true ∧
      ctx.Owned st.projection current ∧ current.state = .gating := by
  simp only [ownedGating, bind_eq_ok, orRefuse_eq_ok, refuseIf_eq_ok, pure_eq_ok, exists_const,
    Bool.not_eq_false, filter_eq_some_iff, decide_eq_true_eq] at h
  obtain ⟨_, ⟨hc, ho, hg⟩, hp, rfl⟩ := h
  exact ⟨hp, ⟨hc, ho⟩, hg⟩

def Appends (context : NotificationContext) (store : MessageStore) (step : WorkerStep)
    (line : LedgerLine) : Prop :=
  ∃ fact, TransitionRow store fact line ∧ context.Names fact ∧
    context.Records store.projection step fact

section Steps

variable {line : LedgerLine} {r : MailboxProjection → Option NotificationRecord}

theorem settleSubmittedClaim_append {r : MailboxProjection → Option Bool}
    (h : ctx.settleSubmittedClaim st now = .ok (.append line r)) :
    ctx.Appends st .settleSubmittedClaim line := by
  simp only [settleSubmittedClaim, bind_eq_ok] at h
  obtain ⟨current, -, h⟩ := h
  split at h
  · cases h
  · split at h
    · cases h
    · obtain ⟨plan, hp, h⟩ := bind_eq_ok.mp h
      obtain ⟨_, rfl⟩ := map_eq_append (pure_eq_ok.mp h)
      exact advanceLocked_append hp

end Steps

theorem plan_append {step : WorkerStep} {result : MailboxProjection → Option Unit}
    (h : ctx.plan st step now = .ok (.append line result)) :
    ctx.Appends st step line := by
  cases step <;> obtain ⟨_, h⟩ := discardAnswer_eq_append h
  case recordGating =>
    simp only [recordGating, bind_eq_ok, ownedRecord_eq_ok, refuseIf_eq_ok, exists_const,
      Bool.not_eq_false] at h
    obtain ⟨current, ho, hp, h⟩ := h
    split at h
    · cases h
    · simp only [bind_eq_ok, refuseIf_eq_ok, exists_const, not_not] at h
      obtain ⟨-, hq, h⟩ := h
      obtain ⟨fact, hr, hn, hs⟩ := advanceLocked_append h
      exact ⟨fact, hr, hn, hs, hp, current, ho, hq⟩
  case recordWriting =>
    simp only [recordWriting, bind_eq_ok] at h
    obtain ⟨_, -, current, hg, h⟩ := h
    obtain ⟨hp, ho, hs⟩ := ownedGating_eq_ok hg
    unfold advanceNotificationWithTransport at h
    split at h
    · cases h
    · exact ⟨_, transitionRow_append (ok.inj h), ⟨rfl, rfl, rfl⟩, rfl, hp, current, ho, hs⟩
  case recordWritingRaw =>
    simp only [recordWritingRaw, bind_eq_ok, pure_eq_ok] at h
    obtain ⟨current, hg, h⟩ := h
    obtain ⟨hp, ho, hs⟩ := ownedGating_eq_ok hg
    exact ⟨_, transitionRow_append h, ⟨rfl, rfl, rfl⟩, rfl, hp, current, ho, hs⟩
  case recordSubmitted => exact advanceLocked_append h
  case recordSubmittedUnverified => exact advanceLocked_append h
  case recordNotified =>
    simp only [recordNotified, bind_eq_ok] at h
    obtain ⟨_ | current, -, h⟩ := h
    · exact ⟨_, transitionRow_append (pure_eq_ok.mp h), ⟨rfl, rfl, rfl⟩, rfl⟩
    · cases h
  case recordMailboxNotified =>
    simp only [recordMailboxNotified, bind_eq_ok] at h
    obtain ⟨current, -, h⟩ := h
    split at h
    · cases h
    · simp only [bind_eq_ok, pure_eq_ok] at h
      obtain ⟨_, -, _, -, h⟩ := h
      exact ⟨_, transitionRow_append h, ⟨rfl, rfl, rfl⟩, rfl⟩
  case settleSubmittedClaim => exact settleSubmittedClaim_append h
  case recordAttention =>
    simp only [recordAttention, bind_eq_ok] at h
    obtain ⟨_ | current, -, h⟩ := h
    · exact advanceLocked_append h
    · cases h
  case recordPreWriteBlock =>
    simp only [recordPreWriteBlockWithWakeBlock, bind_eq_ok, ownedRecord_eq_ok] at h
    obtain ⟨current, ho, h⟩ := h
    split at h
    · cases h
    · simp only [bind_eq_ok, refuseIf_eq_ok, exists_const, pure_eq_ok, not_not] at h
      obtain ⟨hg, h⟩ := h
      exact ⟨_, transitionRow_append h, ⟨rfl, rfl, rfl⟩, rfl, current, ho, hg⟩
  case recordPasteCommandUnwritten =>
    simp only [recordPasteCommandUnwritten, bind_eq_ok, ownedRecord_eq_ok] at h
    obtain ⟨current, ho, h⟩ := h
    split at h
    · cases h
    · simp only [bind_eq_ok, refuseIf_eq_ok, exists_const, pure_eq_ok, not_not] at h
      obtain ⟨hw, h⟩ := h
      exact ⟨_, transitionRow_append h, ⟨rfl, rfl, rfl⟩, rfl, current, ho, hw⟩

end NotificationContext

/-! ## Requests -/

namespace MailboxService

variable {st : MessageStore} {now ts : Nat} {line : LedgerLine}
  {result : MailboxProjection → Option AcceptResult} {attemptId : NotificationAttemptId}

def MessageRow (store : MessageStore) (line : LedgerLine) : Prop :=
  store.Stamped line ∧ ∃ metadata, line.data = some (.metadata metadata)

variable {m : MessageId} {k : RecipientKey}

theorem messageRow_acceptCanonicalAt [DigestScheme] {dr : CanonicalDraft}
    (h : st.acceptCanonicalAt m dr ts now = .ok (.append line result)) :
    MessageRow st line := by
  refine ⟨stampedPlan_acceptCanonicalAt line result h, ?_⟩
  obtain ⟨_, _, _, -, -, -, rfl, -⟩ := acceptCanonicalAt_append h
  exact ⟨_, rfl⟩

def claimTarget (store : MessageStore) (reference : MessageId) : Option MessageId :=
  match parseNotificationAttemptClaimLocator reference with
  | some attemptId =>
    if attemptId ∈ store.projection.notificationAttempts then
      (store.projection.notificationByAttempt attemptId).map NotificationRecord.messageId
    else some reference
  | none => some reference

theorem claim_append {c : RecipientKey} {rf : MessageId}
    {result : MailboxProjection → Option ClaimOutcome}
    (h : claim st c rf now = .ok (.append line result)) :
    ∃ m result', claimTarget st rf = some m ∧
      st.claimAt c m now now = .ok (.append line result') := by
  unfold claim at h
  split at h
  · next attemptId hpa =>
    simp only [bind_eq_ok, pure_eq_ok] at h
    obtain ⟨plan, hp, h⟩ := h
    obtain ⟨_, rfl⟩ := map_eq_append h
    unfold claimNotificationLocator at hp
    split at hp
    · next hu =>
      simp only [bind_eq_ok, pure_eq_ok] at hp
      obtain ⟨plan, hp, h⟩ := hp
      obtain ⟨result', rfl⟩ := map_eq_append h
      exact ⟨rf, result', by simp [claimTarget, hpa, hu], hp⟩
    · next hk =>
      simp only [bind_eq_ok, liftMailbox_eq_ok, orRefuse_eq_ok, filter_eq_some_iff,
        pure_eq_ok] at hp
      obtain ⟨r, ⟨hr, -⟩, _, -, plan, hp, h⟩ := hp
      obtain ⟨result', rfl⟩ := map_eq_append h
      exact ⟨r.messageId, result', by simp [claimTarget, hpa, hk, hr], hp⟩
  · next hpa => exact ⟨rf, result, by simp [claimTarget, hpa], h⟩

theorem prepareOldestNotification_append
    {result : MailboxProjection → Option (Option NotificationRecord)}
    (h : prepareOldestNotification st k attemptId now = .append line result) :
    ∃ fact, TransitionRow st fact line ∧ fact.state = .queued ∧ fact.recipient = k ∧
      firstActionableNotificationMessageId st k = some fact.messageId := by
  unfold prepareOldestNotification at h
  split at h
  · cases h
  · split at h
    · cases h
    · split at h
      · cases h
      · next m hf =>
        split at h
        · obtain ⟨_, h⟩ := map_eq_append h
          exact ⟨_, transitionRow_append h, rfl, rfl, hf⟩
        · cases h

theorem pending_of_firstActionable [DigestScheme] (hp : Coherent st.projection)
    (h : firstActionablePendingMessageId st k = some m) :
    st.projection.entryIsPending k m = true := by
  obtain ⟨e, hf, rfl⟩ := map_eq_some_iff.mp h
  obtain ⟨hm, hs⟩ := List.mem_filter.mp (List.mem_of_find?_eq_some hf)
  rw [MailboxProjection.entryIsPending, hp.mem_getMailbox.mp hm]
  exact hs

def OperatorRow (store : MessageStore) (line : LedgerLine) : Prop :=
  store.Stamped line ∧ ∃ fact, line.data = some (.notification fact) ∧
    (fact matches .notificationRequeued _ _ | .notificationsRequeued _ _ _ |
      .notificationsCleared _ _ _ _ _ | .notificationWithdrawnBeforeWrite _ _) = true

end MailboxService

/-! ## Runs -/

namespace Daemon

variable {d : Daemon} {op : Operation} {line : LedgerLine}

def Emitted (d : Daemon) (line : LedgerLine) : Operation → Prop
  | .send _ _ _ _ | .reply _ _ _ _ => MessageRow d.store line
  | .claim claimant reference _ => d.store.Stamped line ∧ ∃ messageId version,
      claimTarget d.store reference = some messageId ∧
      line.data = some (.mailbox (.messageClaimed version messageId claimant claimant))
  | .prepareOldestNotification recipient _ _ => ∃ fact, TransitionRow d.store fact line ∧
      fact.state = .queued ∧ fact.recipient = recipient ∧
      d.store.projection.board.Head recipient fact.messageId
  | .reopenOldestNotification recipient _ _ _ => ∃ fact current, TransitionRow d.store fact line ∧
      fact.state = .gating ∧ fact.recipient = recipient ∧
      d.store.projection.entryIsPending recipient fact.messageId = true ∧
      d.store.projection.notification recipient fact.messageId = some current ∧
      fact.attemptId = current.attemptId ∧ current.state = .blockedPreWrite ∧
      current.preWriteCause ≠ some .pasteCommandUnwritten
  | .requeueMessage _ _ _ _ | .clearAlarms _ _ _ _ _ | .withdrawNotification _ _ _ _ =>
    OperatorRow d.store line
  | .worker index step _ => ∃ context, d.contexts[index]? = some context ∧
      context.Appends d.store step line
  | _ => False

theorem Emitted.stamped (h : d.Emitted line op) : d.store.Stamped line := by
  cases op <;> simp only [Emitted] at h
  case worker =>
    obtain ⟨_, -, _, hr, -⟩ := h
    exact hr.1
  case prepareOldestNotification =>
    obtain ⟨_, hr, -⟩ := h
    exact hr.1
  case reopenOldestNotification =>
    obtain ⟨_, _, hr, -⟩ := h
    exact hr.1
  all_goals exact h.1

theorem Emitted.transition {fact : NotificationTransition} (h : d.Emitted line op)
    (hda : line.data = some (.notification (.notificationTransition fact))) :
    (∃ i step env context, op = .worker i step env ∧
      d.contexts[i]? = some context ∧ context.Appends d.store step line) ∨
    fact.state = .queued ∨ fact.state = .gating := by
  cases op <;> simp only [Emitted] at h
  case worker i step env =>
    obtain ⟨context, hc, ha⟩ := h
    exact .inl ⟨i, step, env, context, rfl, hc, ha⟩
  case prepareOldestNotification =>
    obtain ⟨_, ⟨-, hd'⟩, hq, -⟩ := h
    cases hda.symm.trans hd'
    exact .inr (.inl hq)
  case reopenOldestNotification =>
    obtain ⟨_, _, ⟨-, hd'⟩, hg, -⟩ := h
    cases hda.symm.trans hd'
    exact .inr (.inr hg)
  case send | reply =>
    obtain ⟨-, _, hd'⟩ := h
    cases hda.symm.trans hd'
  case claim =>
    obtain ⟨-, _, _, -, hd'⟩ := h
    cases hda.symm.trans hd'
  all_goals
    obtain ⟨-, _, hd', hk⟩ := h
    cases hda.symm.trans hd'
    cases hk

theorem emits_worker {c : NotificationContext} {step : WorkerStep} {s : MessageStore}
    (h : c.Appends s step line) : Emits s.projection line := by
  obtain ⟨fact, ⟨-, hda⟩, ⟨hr, hm, -⟩, hre⟩ := h
  simp only [Emits, hda]
  cases step <;> simp only [Records] at hre
  case recordGating =>
    obtain ⟨hs, hp, current, ⟨hc, -⟩, hq⟩ := hre
    simp only [EmitsTransition, hs, hr, hm]
    refine ⟨hp, fun o ho => .inl ?_⟩
    rw [hc, some.injEq] at ho
    exact ho ▸ hq
  all_goals
    first
      | (obtain ⟨hs, -⟩ := hre; simp only [EmitsTransition, hs])
      | simp only [EmitsTransition, hre]

theorem Emitted.emits (h : d.Emitted line op) : Emits d.store.projection line := by
  cases op <;> simp only [Emitted] at h
  case worker =>
    obtain ⟨_, -, ha⟩ := h
    exact emits_worker ha
  case claim =>
    obtain ⟨-, _, _, -, hda⟩ := h
    simp only [Emits, hda]
  case prepareOldestNotification =>
    obtain ⟨fact, ⟨-, hda⟩, hs, rfl, hh⟩ := h
    simpa only [Emits, hda, EmitsTransition, hs] using hh
  case reopenOldestNotification =>
    obtain ⟨fact, current, ⟨-, hda⟩, hs, rfl, hp, hc, -, hb, hca⟩ := h
    simp only [Emits, hda, EmitsTransition, hs]
    refine ⟨hp, fun o ho => .inr ?_⟩
    rw [hc, some.injEq] at ho
    exact ho ▸ ⟨hb, hca⟩
  case send | reply =>
    obtain ⟨-, _, hda⟩ := h
    simp only [Emits, hda]
  all_goals
    obtain ⟨-, fact, hda, hk⟩ := h
    unfold Emits
    cases fact <;> simp only [hda, reduceCtorEq] at hk ⊢

theorem emits_recoverNotification (s : MessageStore) (r : NotificationRecord)
    (now : Nat) : s.Meets Emits (.ok (s.recoverNotification r now)) := by
  obtain ⟨fact, hs, heq⟩ := recoverNotification_eq s r now
  intro line result hp
  rw [heq] at hp
  obtain ⟨hst, hda⟩ := transitionRow_append (ok.inj hp)
  refine ⟨hst, ?_⟩
  rcases hs with hs | hs <;> simp only [Emits, hda, EmitsTransition, hs]

variable [DigestScheme] {w : WorkspaceId} {ok : MailboxProjection → LedgerLine → Prop}
  {plan : Except Failure (Plan Unit)} {env : Env}

theorem plan_emitted (hp : Coherent d.store.projection) (hpl : d.plan op = some (plan, env))
    {result : MailboxProjection → Option Unit} (h : plan = .ok (.append line result)) :
    d.Emitted line op := by
  subst h
  cases op <;> simp only [Daemon.plan, some.injEq, Prod.mk.injEq, map_eq_some_iff,
    reduceCtorEq] at hpl
  case worker =>
    obtain ⟨c, hco, hpl, -⟩ := hpl
    exact ⟨c, hco, plan_append hpl⟩
  all_goals obtain ⟨_, hpl⟩ := discardAnswer_eq_append hpl.1
  case send =>
    simp only [send, bind_eq_ok] at hpl
    obtain ⟨_, -, _, -, _, -, ha⟩ := hpl
    exact messageRow_acceptCanonicalAt ha
  case reply =>
    simp only [replyWithSummary, replyAt, bind_eq_ok] at hpl
    obtain ⟨_, -, _, -, _, -, _, -, _, -, ha⟩ := hpl
    exact messageRow_acceptCanonicalAt ha
  case claim =>
    obtain ⟨messageId, _, ht, hcl⟩ := claim_append hpl
    refine ⟨stampedPlan_claimAt _ _ hcl, messageId, canonicalRecordVersion, ht, ?_⟩
    obtain ⟨e, _, he, -, -, rfl, -⟩ := claimAt_append hcl
    rw [(hp.getEntry_spec he).1]
    rfl
  case prepareOldestNotification =>
    obtain ⟨fact, hro, hs, hr, hf⟩ :=
      prepareOldestNotification_append (ok.inj hpl)
    exact ⟨fact, hro, hs, hr, head_of_firstActionable hp hf⟩
  case reopenOldestNotification =>
    have h := ok.inj hpl
    unfold reopenOldestNotificationAfterRouteEvidence at h
    split at h
    · cases h
    · split at h
      · cases h
      · next messageId hf =>
        split at h
        · cases h
        · next current hcu =>
          split at h
          · cases h
          · next ho =>
            simp only [not_or, Bool.not_eq_false, not_not] at ho
            obtain ⟨hb, -, hc, -⟩ := ho
            obtain ⟨_, h⟩ := map_eq_append h
            refine ⟨_, current, transitionRow_append h, rfl, rfl,
              pending_of_firstActionable hp hf, hcu, rfl, hb, fun hca => ?_⟩
            rw [causeChanged, hca] at hc
            cases hc
  case requeueMessage =>
    have h := liftMailbox_eq_ok.mp hpl
    simp only [requeueMessage, bind_eq_ok, pure_eq_ok] at h
    obtain ⟨_, -, h⟩ := h
    unfold requeueNotifications at h
    split at h
    · cases h
    · obtain ⟨_, h⟩ := map_eq_append h
      cases h
      exact ⟨stamped_stateRow, _, rfl, rfl⟩
    · cases h
      exact ⟨stamped_stateRow, _, rfl, rfl⟩
  case clearAlarms =>
    have h := liftMailbox_eq_ok.mp hpl
    simp only [clearAlarms, bind_eq_ok, pure_eq_ok] at h
    obtain ⟨_, -, _, -, plan, hpl, h⟩ := h
    obtain ⟨_, rfl⟩ := map_eq_append h
    obtain ⟨_, rfl, -⟩ := clearNotificationsAt_append hpl
    exact ⟨stamped_stateRow, _, rfl, rfl⟩
  case withdrawNotification =>
    have h := liftMailbox_eq_ok.mp hpl
    simp only [MailboxService.withdrawNotificationBeforeWrite, bind_eq_ok] at h
    obtain ⟨plan, hw, h⟩ := h
    split at h
    · cases h
    · cases h
      obtain ⟨_, -, -, -, rfl, -⟩ := withdrawNotificationBeforeWrite_append hw
      exact ⟨⟨rfl, stamp_ne_zero 0 _⟩, _, rfl, rfl⟩

theorem emits_plan (hp : Coherent d.store.projection) (hpl : d.plan op = some (plan, env)) :
    d.store.Meets Emits plan := by
  intro line result h
  have he := plan_emitted hp hpl h
  exact ⟨he.stamped, he.emits⟩

theorem step_sound (h : d.store.Sound ok w)
    (hm : ∀ plan env, d.plan op = some (plan, env) → d.store.Meets ok plan)
    (hr : Recovers ok) :
    (d.step op).store.Sound ok w := by
  unfold step
  split
  · exact h
  · split <;> exact h
  · exact { h with }
  · next b o env =>
    obtain ⟨r, ho, hs, -⟩ := h.openJournal b
    simp only [restart, h.reachable.workspaceId_eq, ho]
    exact hs.recoverNotifications hr
  · split
    · exact h
    · next plan env hp => exact h.perform (hm plan env hp)

theorem sound_step (h : d.store.Sound Emits w) (op : Operation) : (d.step op).store.Sound Emits w :=
  step_sound h (fun _ _ => emits_plan h.reachable.coherent) emits_recoverNotification

theorem sound_run (w : WorkspaceId) (b : String) (ops : List Operation) :
    ((start w b).run ops).store.Sound Emits w :=
  Runs.foldl_invariant (fun d : Daemon => d.store.Sound Emits w)
    (fun _ op h => sound_step h op) (.empty w b)

theorem step_advances (h : d.store.Sound Emits w) (op : Operation) :
    Advances d.store.projection (d.step op).store.projection := by
  unfold step
  split
  · exact .refl _
  · split <;> exact .refl _
  · exact .refl _
  · next b o env =>
    obtain ⟨r, ho, hs, -⟩ := h.openJournal b
    simp only [restart, h.reachable.workspaceId_eq, ho]
    exact (h.openJournal_advances ho).trans (hs.recover_advances emits_recoverNotification)
  · split
    · exact .refl _
    · next plan env hp =>
      exact h.perform_advances (emits_plan h.reachable.coherent hp)

theorem run_advances (h : d.store.Sound Emits w) (ops : List Operation) :
    (d.run ops).store.Sound Emits w ∧ Advances d.store.projection (d.run ops).store.projection :=
  Runs.foldl_invariant (fun r : Daemon => r.store.Sound Emits w ∧
      Advances d.store.projection r.store.projection)
    (fun _ op hr => ⟨sound_step hr.1 op, hr.2.trans (step_advances hr.1 op)⟩)
    ⟨h, .refl _⟩

/-- No run takes back what an earlier one recorded, torn appends and restarts included. -/
theorem recorded_stays (w : WorkspaceId) (b : String) (ops more : List Operation) :
    let before := ((start w b).run ops).store.projection
    let after := (((start w b).run ops).run more).store.projection
    (∀ m row, before.messages.lookup m = some row → after.messages.lookup m = some row) ∧
    (∀ m row, after.messages.lookup m = some row →
      before.messages.lookup m = some row ∨ before.head < row.seq) ∧
    (∀ key s, before.board.entry key = some s → s ≠ .pending → after.board.entry key = some s) ∧
    before.board.Follows after.board := by
  have sound := sound_run w b ops
  have later := (run_advances sound more).2
  exact ⟨fun _ _ => later.message sound.reachable, fun _ _ => later.message_cases sound.reachable,
    fun _ _ => later.settled sound.reachable, later.follows sound.reachable⟩

end Daemon

end Cyclops
