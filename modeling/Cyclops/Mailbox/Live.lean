import Cyclops.Mailbox.Refinement
import Cyclops.Mailbox.Replay
import Cyclops.Mailbox.Service

/-!
# The rows of the current daemon

A journal may hold rows of older daemons: reminders, staged writes, quota holds, deliveries without
a claim.
-/

namespace Cyclops

open Checked FiniteMap MailboxProjection MessageStore List Option Board

namespace Board

variable (b : Board)

/-- Whether the wake of an entry has not reached a terminal result. -/
def actionable (key : EntryKey) : Bool :=
  match b.entry key with
  | some .pending =>
    match b.record key with
    | some record => record.state != .withdrawnByOperator
    | none => true
  | some (.claimed _ _) =>
    match b.record key with
    | some record => MailboxService.unsettledWake record.state
    | none => false
  | _ => false

/-- The first entry of a lane whose wake has not reached a terminal result. -/
def Head (r : RecipientKey) (m : MessageId) : Prop :=
  ∃ before after, b.lane r = before ++ m :: after ∧
    (∀ m' ∈ before, b.actionable (r, m') = false) ∧ b.actionable (r, m) = true

def liveState (state : NotificationState) : Bool :=
  state matches .queued | .gating | .blockedPreWrite | .writing | .submitted |
    .submittedUnverified | .notified | .attentionRequired | .withdrawn

def Gateable (current : NotificationRecord) : Prop :=
  current.state = .queued ∨
    current.state = .blockedPreWrite ∧ current.preWriteCause ≠ some .pasteCommandUnwritten

def Live : Action → Prop
  | .settle _ state => ∃ claimant at_, state = .claimed claimant at_
  | .start key _ => b.record key = none → b.Head key.1 key.2
  | .move key record _ => liveState record.state = true ∧ (record.state = .gating →
      b.entry key = some .pending ∧ ∀ current, b.record key = some current → Gateable current)
  | .put _ record => record.state = .withdrawnByOperator
  | .release _ => False
  | _ => True

end Board

def EmitsTransition (p : MailboxProjection) (fact : NotificationTransition) : Prop :=
  match fact.state with
  | .queued => p.board.Head fact.recipient fact.messageId
  | .gating => p.entryIsPending fact.recipient fact.messageId = true ∧
      ∀ current, p.notification fact.recipient fact.messageId = some current →
        Board.Gateable current
  | .blockedPreWrite | .writing | .submitted | .submittedUnverified | .notified
  | .attentionRequired => True
  | _ => False

def Emits (p : MailboxProjection) (line : LedgerLine) : Prop :=
  match line.data with
  | some (.metadata _) => True
  | some (.mailbox (.messageClaimed _ _ _ _)) => True
  | some (.notification (.notificationTransition fact)) => EmitsTransition p fact
  | some (.notification (.notificationRequeued _ _)) => True
  | some (.notification (.notificationsRequeued _ _ _)) => True
  | some (.notification (.notificationsCleared _ _ _ _ _)) => True
  | some (.notification (.notificationWithdrawnBeforeWrite _ _)) => True
  | _ => False

variable {p q : MailboxProjection} {line : LedgerLine} {w : WorkspaceId}

/-! ## Live actions -/

theorem EmitsTransition.live {fact : NotificationTransition} (h : EmitsTransition p fact) :
    liveState fact.state = true ∧ (fact.state = .gating →
      p.board.entry (fact.recipient, fact.messageId) = some .pending ∧
        ∀ c, p.board.record (fact.recipient, fact.messageId) = some c → Gateable c) := by
  unfold EmitsTransition at h
  split at h
  · next hs => simp [hs, liveState]
  · next hs =>
    exact ⟨by simp [hs, liveState], fun _ => ⟨board_entry_pending.mpr h.1, h.2⟩⟩
  all_goals first | exact h.elim | (next hs => simp [hs, liveState])

variable {mid : MessageId}

variable {b : Board} {m : PreparedMutation} {ls : List LedgerLine} {st : MessageStore}
  {r : RecipientKey}

theorem live_requeues {requeues : List NotificationRequeue}
    (held : ∀ requeue ∈ requeues, b.record (requeue.recipient, mid) ≠ none) :
    Runs.Along act Live b ((PreparedMutation.notificationRequeues
        (requeues.map (requeuedRecord line mid))).actions line) := by
  induction requeues generalizing b with
  | nil => trivial
  | cons requeue rest ih =>
    refine ⟨fun hn => absurd hn (held requeue mem_cons_self), ih fun o ho => ?_⟩
    exact act_record_ne_none (held o (mem_cons_of_mem _ ho)) _

variable [DigestScheme]

theorem Emits.live (h : Emits p line) (hm : p.prepareLineInner line false = .ok m) :
    Runs.Along act Live p.board (m.actions line) := by
  have ha := (accepted_of_prepare hm).2.2
  unfold Emits at h
  cases ha with
  | @message mid md =>
    cases hs : md.supersedes <;> cases hr : md.recipients <;>
      simp [PreparedMutation.actions, hs, hr, Live]
  | @claim _ mid k =>
    cases hu : p.claimSettlement line k mid with
    | none => exact ⟨⟨_, _, rfl⟩, trivial⟩
    | some =>
      obtain ⟨c, -, hne, rfl⟩ := claimSettlement_eq_some hu
      have hst : (settledRecord line c).state = .withdrawn ∨
          (settledRecord line c).state = .notified := settledByClaim_cases hne
      refine ⟨?_, ⟨_, _, rfl⟩, trivial⟩
      rcases hst with hst | hst <;> simp [Live, liveState, hst]
  | started hd had hno hq =>
    simp only [hd, EmitsTransition, hq] at h
    exact ⟨fun _ => h, trivial⟩
  | moved hd =>
    simp only [hd] at h
    exact ⟨h.live, trivial⟩
  | requeued hd hag hc =>
    refine ⟨fun hn => ?_, trivial⟩
    exact absurd (hc.held.symm.trans hn) (some_ne_none _)
  | requeuedAll hd hc =>
    refine live_requeues fun requeue hme => ?_
    obtain ⟨c, ha⟩ := hc.each requeue hme
    rw [show p.board.record _ = _ from ha.held]
    exact some_ne_none c
  | withdrawn => exact ⟨rfl, trivial⟩
  | clearedAll => exact trivial
  | deliveredDirect hd | reminded hd | cleared hd | intent hd | actionReserved hd
  | actionAccepted hd | consumptionObserved hd | intentWithdrawn hd
  | resolvedWithoutAction hd | resolved hd | stagedCleared hd | ackTimeout hd
  | barrierRetired hd =>
    simp [hd] at h

/-- What the guarded actions of a journal's rows preserve holds on its board. -/
theorem Journal.board_invariant {ok : MailboxProjection → LedgerLine → Prop}
    {g : Board → Action → Prop} (inv : Board → Prop)
    (hd : ∀ p line m, Coherent p → ok p line → p.prepareLineInner line false = .ok m →
      Runs.Along act g p.board (m.actions line))
    (hin : inv (new w).board)
    (hpr : ∀ b a, inv b → b.Guard false a → g b a → inv (b.act a))
    (h : Journal ok w ls p) : inv p.board := by
  induction h with
  | nil => exact hin
  | concat hbe hme ha ih =>
    have hp := hbe.reachable.coherent
    obtain ⟨m, hm, hg, hb⟩ := ha.board hp
    rw [hb]
    exact (hg.and (hd _ _ _ hp hme hm)).invariant inv (fun b a hi hok => hpr b a hi hok.1 hok.2) ih

/-! ## Resolutions -/

theorem Emits.resolution (h : Emits p line) (hm : p.prepareLineInner line false = .ok m) :
    m.resolution = false := by
  have ha := (accepted_of_prepare hm).2.2
  unfold Emits at h
  cases ha with
  | intent hd | intentWithdrawn hd | resolvedWithoutAction hd | resolved hd =>
    simp [hd] at h
  | _ => rfl

theorem Journal.unresolved (h : Journal Emits w ls p) :
    p.resolvedAttempts = ∅ ∧ p.resolutionIntents = ∅ := by
  induction h with
  | nil => exact ⟨rfl, rfl⟩
  | concat hb hme ha ih =>
    obtain ⟨m, hm, hq⟩ := applies_iff.mp ha
    obtain ⟨hr, hi⟩ := (commitLine_frame hq).2.2.2.2 (hme.resolution hm)
    exact ⟨hr.trans ih.1, hi.trans ih.2⟩

/-! ## Heads of lanes -/

theorem actionable_eq (hp : Coherent st.projection) {e : MailboxEntry}
    (h : e ∈ st.projection.getMailbox r) :
    MailboxService.actionable st r e = st.projection.board.actionable (r, e.messageId) := by
  have he := hp.mem_getMailbox.mp h
  simp only [MailboxService.actionable, actionable, board, he,
    map_some, notificationWithdrawnByOperator,
    notification]
  cases e.state with
  | pending => cases st.projection.notifications.lookup (r, e.messageId) <;> rfl
  | claimed => rfl
  | superseded => rfl
  | deliveredDirect => rfl

theorem head_of_firstActionable (hp : Coherent st.projection) {m : MessageId}
    (h : MailboxService.firstActionableNotificationMessageId st r = some m) :
    st.projection.board.Head r m := by
  obtain ⟨entry, hf, rfl⟩ := map_eq_some_iff.mp h
  obtain ⟨ha, before, after, hm, hb⟩ :=
    find?_eq_some_iff_append.mp hf
  have hme : ∀ e ∈ before ++ entry :: after, e ∈ st.projection.getMailbox r := by
    rw [hm]
    exact fun _ he => he
  refine ⟨before.map MailboxEntry.messageId, after.map MailboxEntry.messageId, ?_, ?_, ?_⟩
  · simp [board, hm]
  · intro m' hm'
    obtain ⟨earlier, hea, rfl⟩ := mem_map.mp hm'
    have hn := hb earlier hea
    rw [← actionable_eq hp (hme earlier (mem_append_left _ hea))]
    simpa using hn
  · rw [← actionable_eq hp (hme entry (by simp))]
    exact ha

end Cyclops
