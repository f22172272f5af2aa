import Cyclops.Mailbox.Board

/-!
# Rows act on the board

Every accepted row changes the board of its projection by the actions of its mutation, and each of
these actions is guarded in the board it meets.
-/

namespace Cyclops

open Checked FiniteMap Board PreparedMutation List Option Function MailboxEntry

variable {p q : MailboxProjection} {line : LedgerLine}

/-! ## Entries and lanes -/

namespace MailboxProjection

variable {r : RecipientKey} {m : MessageId} {state : MailboxEntryState}
  {rec : NotificationRecord}

theorem board_entry_pending :
    p.board.entry (r, m) = some .pending ↔ p.entryIsPending r m = true := by
  simp only [board, entryIsPending]
  cases p.getEntry r m with
  | none => simp
  | some e => cases h : e.state <;> simp [MailboxEntryState.isPending, h]

theorem board_entry_claimed : (∃ c at_, p.board.entry (r, m) = some (.claimed c at_)) ↔
      p.entryIsClaimed r m = true := by
  simp only [board, entryIsClaimed]
  cases p.getEntry r m with
  | none => simp
  | some e => cases h : e.state <;> simp [MailboxEntryState.isClaimed, h]

theorem board_claimed : p.board.Claimed (r, m) ↔ p.claimedByRecipient r m = true := by
  simp only [Claimed, board, claimedByRecipient]
  cases p.getEntry r m with
  | none => simp
  | some e =>
    obtain ⟨_, _, state, _, _⟩ := e
    cases state <;> simp

theorem getMailbox_setEntryState (h : p.setEntryState r m state = some q) (r' : RecipientKey) :
    (q.getMailbox r').map messageId = (p.getMailbox r').map messageId := by
  obtain ⟨seq, entry, mailbox, hs, hm, hen, rfl⟩ := setEntryState_eq_some h
  by_cases hr : r' = r
  · subst hr
    have hme : seq ∈ mailbox := mem_iff_lookup.mpr ⟨entry, hen⟩
    simp only [getMailbox, lookup_insert_ite, if_true, hm, ordered_insert_of_mem hme, List.map_map]
    refine map_congr_left fun e he => ?_
    by_cases hes : e.1 = seq
    · have := mem_ordered.mp (show (⟨e.1, e.2⟩ : Σ _ : Nat, MailboxEntry) ∈ ordered mailbox from he)
      rw [hes, hen, some.injEq] at this
      simp [hes, this]
    · simp [hes]
  · simp [getMailbox, hr]

theorem mailboxes_addEntries {messageId : MessageId} {ks : List RecipientKey}
    (hno : ks.Nodup) (r : RecipientKey) :
    (ks.foldl (fun q => q.addEntry line messageId) p).mailboxes.lookup r =
      if r ∈ ks then
        some (((p.mailboxes.lookup r).getD ∅).insert line.seq (newEntry line messageId r))
      else p.mailboxes.lookup r := by
  induction ks generalizing p with
  | nil => simp
  | cons k rest ih =>
    obtain ⟨hn, hre⟩ := nodup_cons.mp hno
    rw [foldl_cons, ih hre]
    by_cases hr : r = k
    · subst hr
      simp only [hn, mem_cons, addEntry, lookup_insert_ite]
      rfl
    · simp [addEntry, hr]

theorem claimedByRecipient_of_afterWrite (h : p.exactRecipientClaimedAfterWrite rec = true) :
    p.claimedByRecipient rec.recipient rec.messageId = true := by
  unfold exactRecipientClaimedAfterWrite at h
  split at h
  · exact (Bool.and_eq_true_iff.mp h).2
  · cases h

/-! ## Records and barriers -/

theorem board_putNotification {key : EntryKey} :
    (p.putNotification key rec).board = p.board.hold key rec := by
  refine Board.ext rfl rfl (funext fun k => ?_) rfl rfl rfl
  simp [board, putNotification, Board.hold, update_apply]

theorem board_startAttempt {key : EntryKey} :
    (p.startAttempt key rec).board = p.board.act (.start key rec) := by
  refine Board.ext rfl rfl (funext fun k => ?_) rfl rfl rfl
  simp [board, startAttempt, Board.act, Board.hold, update_apply]

theorem board_startAttempts (rs : List (EntryKey × NotificationRecord)) :
    (rs.foldl (fun q requeued => q.startAttempt requeued.1 requeued.2) p).board =
      (rs.map fun requeued => Action.start requeued.1 requeued.2).foldl act p.board := by
  induction rs generalizing p with
  | nil => rfl
  | cons requeued rest ih => rw [foldl_cons, ih, board_startAttempt]; rfl

theorem board_releaseBarrier {ai : NotificationAttemptId} :
    (p.releaseBarrier ai).board = p.board.act (.release ai) := by
  refine Board.ext rfl rfl rfl (funext fun a => ?_) rfl rfl
  simp [board, releaseBarrier, Board.act, update_apply]

theorem board_trackBarrier : (p.trackBarrier line rec).board = p.board.track rec line.seq := by
  unfold trackBarrier track
  split
  · refine Board.ext rfl rfl rfl (funext fun a => ?_) (funext fun a => ?_) rfl
    · by_cases ha : a = rec.attemptId
      · simp [board, crossWriteBoundary, ha]
      · simp [board, crossWriteBoundary, ha, lookup_retain_eq]
    · simp [board, crossWriteBoundary, update_apply]
  · split
    · refine Board.ext rfl rfl rfl (funext fun a => ?_) (funext fun a => ?_) rfl <;>
        simp [board, uncrossWriteBoundary, update_apply]
    · unfold refreshBarrier
      split
      · next hm =>
        refine Board.ext rfl rfl rfl (funext fun a => ?_) rfl rfl
        by_cases ha : a = rec.attemptId
        · simp [board, ha, AList.lookup_isSome.mpr hm]
        · simp [board, ha]
      · next hm =>
        refine Board.ext rfl rfl rfl (funext fun a => ?_) rfl rfl
        by_cases ha : a = rec.attemptId
        · simp [board, ha, not_mem_iff_lookup.mp hm]
        · simp [ha]

/-! ## Settling and filing -/

variable [DigestScheme]

theorem getEntry_setEntryState (hp : Coherent p) (h : p.setEntryState r m state = some q)
    (r' : RecipientKey) (m' : MessageId) :
    q.getEntry r' m' =
      if (r', m') = (r, m) then (p.getEntry r' m').map fun entry => { entry with state }
      else p.getEntry r' m' := by
  have hi : q.mailboxIndex = p.mailboxIndex := by
    obtain ⟨_, _, _, -, -, -, rfl⟩ := setEntryState_eq_some h
    rfl
  rw [getEntry_eq, getEntry_eq, hi]
  cases hs : p.mailboxIndex.lookup (r', m') with
  | none => simp
  | some =>
    rw [bind_some, bind_some, entryAt_setEntryState h]
    by_cases hk : (r', m') = (r, m)
    · cases hk
      simp [hs]
    · rw [if_neg hk, if_neg]
      rintro ⟨rfl, hs'⟩
      -- Two messages of one mailbox are never at the same number.
      obtain ⟨e, he, rfl⟩ := hp.found hs
      obtain ⟨e', he', rfl⟩ := hp.found hs'
      rw [he, some.injEq] at he'
      exact hk (by rw [he'])

theorem board_setEntryState (hp : Coherent p) (h : p.setEntryState r m state = some q) :
    q.board = p.board.act (.settle (r, m) state) := by
  have hl := getMailbox_setEntryState h
  have hen := getEntry_setEntryState hp h
  have hf : p.getEntry r m ≠ none := by
    obtain ⟨seq, entry, mailbox, hs, hm, hen, -⟩ := setEntryState_eq_some h
    simp [getEntry, hs, hm, hen]
  obtain ⟨_, _, _, -, -, -, rfl⟩ := setEntryState_eq_some h
  simp only [board, Board.act, Board.mk.injEq, and_true]
  refine ⟨funext hl, funext fun key => ?_⟩
  rw [hen, update_apply]
  split
  · next hk =>
    obtain ⟨entry, he⟩ := ne_none_iff_exists'.mp hf
    cases hk
    simp [he]
  · rfl

section FileMessage

variable {messageId : MessageId} {md : MessageMetadata}

theorem getEntry_fileMessage (hp : Coherent p)
    (hla : ∀ {m row}, p.messages.lookup m = some row → row.seq < line.seq) (r : RecipientKey)
    (m : MessageId) :
    (p.fileMessage line messageId md).getEntry r m =
      if r ∈ md.recipients ∧ m = messageId then some (newEntry line messageId r)
      else p.getEntry r m := by
  rw [getEntry_eq, getEntry_eq, mailboxIndex_fileMessage]
  split
  · next h => rw [bind_some, entryAt_fileMessage, if_pos ⟨h.1, rfl⟩]
  · cases hs : p.mailboxIndex.lookup (r, m) with
    | none => rfl
    | some =>
      obtain ⟨row, -, hr, -, rfl, -⟩ := hp.addressed.mp hs
      rw [bind_some, bind_some, entryAt_fileMessage, if_neg fun h => (hla hr).ne h.2]

section

variable (hp : Coherent p) (hno : md.recipients.Nodup)
    (hla : ∀ {m row}, p.messages.lookup m = some row → row.seq < line.seq)

include hp hno hla

theorem getMailbox_fileMessage (r : RecipientKey) : (p.fileMessage line messageId md).getMailbox r =
      if r ∈ md.recipients then p.getMailbox r ++ [newEntry line messageId r]
      else p.getMailbox r := by
  have hma : (p.fileMessage line messageId md).mailboxes.lookup r =
      if r ∈ md.recipients then
        some (((p.mailboxes.lookup r).getD ∅).insert line.seq (newEntry line messageId r))
      else p.mailboxes.lookup r := by
    have hk : (p.indexClientKey messageId md).mailboxes = p.mailboxes := by
      rw [indexClientKey_frame]
    rw [← hk]
    exact mailboxes_addEntries hno r
  rw [getMailbox, hma, getMailbox]
  split_ifs
  · cases hm : p.mailboxes.lookup r with
    | none => rfl
    | some mailbox =>
      have hl : ∀ s ∈ mailbox, s < line.seq := by
        intro s hs
        obtain ⟨e, he⟩ := mem_iff_lookup.mp hs
        have hat : p.entryAt r s = some e := by simp [entryAt, hm, he]
        obtain ⟨-, -, hi⟩ := hp.filed hat
        obtain ⟨row, -, hr, -, rfl, -⟩ := hp.addressed.mp hi
        exact hla hr
      simp [ordered_insert_of_lt hl]
  · rfl

theorem board_fileMessage : (p.fileMessage line m md).board =
      p.board.act (.file m md.recipients) := by
  refine Board.ext (funext fun r => ?_) (funext fun key => ?_) ?_ ?_ ?_ ?_
  · change (getMailbox _ r).map messageId = _
    rw [getMailbox_fileMessage hp hno hla]
    simp only [act, board]
    split <;> simp [newEntry]
  · change (getEntry _ key.1 key.2).map state = _
    rw [getEntry_fileMessage hp hla]
    simp only [act, board]
    split <;> simp [newEntry]
  all_goals
    rw [fileMessage_frame]
    rfl

end

end FileMessage

end MailboxProjection

/-! ## Rows -/

open MailboxProjection

theorem guarded_requeues {b : Board} {rp : Bool} {m : MessageId}
    {requeues : List NotificationRequeue}
    (hea : ∀ requeue ∈ requeues, b.entry (requeue.recipient, m) = some .pending ∧
      requeue.attemptId ∉ b.issued ∧ requeue.recipient.isAdmin = false ∧
      ∀ c, b.record (requeue.recipient, m) = some c →
        c.state = .attentionRequired ∨ c.state = .quotaResetObserved)
    (hat : (requeues.map NotificationRequeue.attemptId).Nodup)
    (hr : (requeues.map NotificationRequeue.recipient).Nodup) :
    Runs.Along act (Guard rp) b ((notificationRequeues
        (requeues.map (requeuedRecord line m))).actions line) := by
  induction requeues generalizing b with
  | nil => trivial
  | cons requeue rest ih =>
    rw [map_cons, nodup_cons] at hat hr
    obtain ⟨he, hu, ha, hh⟩ := hea requeue mem_cons_self
    refine ⟨⟨he, hu, ha, ⟨line, rfl⟩, hh⟩, ih ?_ hat.2 hr.2⟩
    intro o ho
    obtain ⟨he', hu', ha', hh'⟩ := hea o (mem_cons_of_mem _ ho)
    refine ⟨he', fun hm => ?_, ha', fun c hc => hh' c ?_⟩
    · rcases Finset.mem_insert.mp hm with heq | hm
      · exact hat.1 (mem_map.mpr ⟨o, ho, heq⟩)
      · exact hu' hm
    · have hne : (o.recipient, m) ≠ (requeue.recipient, m) := fun heq =>
        hr.1 (mem_map.mpr ⟨o, ho, (Prod.mk.inj heq).1⟩)
      simpa [act, hold, requeuedRecord, update_of_ne hne] using hc

variable [DigestScheme] {mid : MessageId} {md : MessageMetadata}

section

variable (hp : Coherent p)
include hp

theorem board_commitStart {a : NotificationAttemptId}
    {k : RecipientKey} (hu : a ∉ p.notificationAttempts) :
    (p.commitNotification line (k, mid) (queuedRecord line a mid k) true).board =
      p.board.act (.start (k, mid) (queuedRecord line a mid k)) := by
  unfold commitNotification
  rw [trackBarrier_queued fun hb => hu (hp.barred hb)]
  exact board_startAttempt

variable {rt : Option MessageId} {rp : Bool}

theorem board_commitMessage (hse : line.seq = p.head + 1)
    (h : MessageAccepted p line mid md rt) (hq : p.commitLine line
      (.message mid md (p.supersededNotification line md)) = some q) :
    q.board = ((message mid md
      (p.supersededNotification line md)).actions line).foldl act p.board := by
  rw [commitLine, commitMessage_eq, map_eq_some_iff] at hq
  obtain ⟨c, hc, rfl⟩ := hq
  have ha := hp.advanced hse
  obtain ⟨c', hc', hco, mailboxes, hfr⟩ := ha.closeSuperseded line mid fun t ht => by
    obtain ⟨r, hr, hpe, -⟩ := h.superseding ht
    exact ⟨r, hr, getEntry_of_pending hpe⟩
  rw [hc, some.injEq] at hc'
  subst hc'
  have hl : ∀ {m row}, c.messages.lookup m = some row → row.seq < line.seq := by
    intro m row hro
    rw [hfr] at hro
    have := (hp.numbered hro).2
    omega
  have hf := board_fileMessage hco (m := mid) h.recipients_nodup hl
  cases hs : md.supersedes with
  | none =>
    rw [closeSuperseded, hs] at hc
    cases hc
    simp only [actions, supersededNotification, hs, putUpdate, hf]
    rfl
  | some t =>
    obtain ⟨r, hr, -⟩ := h.superseding hs
    rw [closeSuperseded, hs] at hc
    obtain ⟨r', hr', hset⟩ := bind_eq_some_iff.mp hc
    rw [hr, head?_cons, some.injEq] at hr'
    subst hr'
    rw [board_setEntryState ha hset] at hf
    cases hh : p.notifications.lookup (r, t) with
    | none =>
      simp only [actions, supersededNotification, hs, hr, hh, map_none, putUpdate, hf]
      rfl
    | some =>
      simp only [actions, supersededNotification, hs, hr, hh, map_some,
        putUpdate, board_putNotification, hf]
      rfl

/-- The board after a row: the actions of its mutation, in order. -/
theorem board_commit {m : PreparedMutation} (hs : line.seq = p.head + 1)
    (h : Accepted p line rp m) (hq : p.commitLine line m = some q) :
    q.board = (m.actions line).foldl act p.board := by
  cases h with
  | message hch => exact board_commitMessage hp hs hch hq
  | @claim _ mid k =>
    obtain ⟨c, hset, hq⟩ := bind_eq_some_iff.mp hq
    cases hq
    have hse : Coherent { p.advanced line with
          claimSequences :=
            (p.advanced line).claimSequences.insert (k, mid) line.seq } :=
      { hp.advanced hs with }
    have hc := board_setEntryState hse hset
    cases hu : p.claimSettlement line k mid with
    | none => exact hc
    | some =>
      obtain ⟨cur, hh, hne, rfl⟩ := claimSettlement_eq_some hu
      change ((c.refreshBarrier _).putNotification _ _).board = _
      rw [board_putNotification, ← trackBarrier_settled hne, board_trackBarrier, hc]
      exact act_settle_move
  | deliveredDirect =>
    have hsett := board_setEntryState (hp.advanced hs) hq
    exact hsett
  | started hd ha hn hqu hpe hun =>
    cases hq
    exact board_commitStart (hp.advanced hs) hun
  | moved | reminded =>
    cases hq
    exact board_putNotification.trans (by rw [board_trackBarrier]; rfl)
  | requeued hd hag hch =>
    cases hq
    exact board_commitStart (hp.advanced hs) hch.unissued
  | requeuedAll =>
    cases hq
    exact board_startAttempts _
  | withdrawn =>
    cases hq
    exact board_putNotification
  | resolvedWithoutAction | resolved | barrierRetired =>
    cases hq
    exact board_releaseBarrier
  | stagedCleared =>
    cases hq
    exact board_releaseBarrier.trans (by rw [board_putNotification]; rfl)
  | ackTimeout =>
    cases hq
    change (((p.advanced line).putNotification _ _).releaseBarrier _).board = _
    exact board_releaseBarrier.trans (by rw [board_putNotification]; rfl)
  | _ =>
    cases hq
    rfl

/-! ## Guards -/

theorem mem_lane {r : RecipientKey} {m : MessageId} :
    m ∈ p.board.lane r ↔ p.board.entry (r, m) ≠ none := by
  simp only [board, List.mem_map, hp.mem_getMailbox, ne_eq, map_eq_none_iff]
  constructor
  · rintro ⟨e, he, rfl⟩
    simp [he]
  · intro h
    obtain ⟨e, he⟩ := ne_none_iff_exists'.mp h
    obtain ⟨-, hm, -⟩ := hp.getEntry_spec he
    exact ⟨e, hm ▸ he, hm⟩

theorem entry_of_fresh {m : MessageId} (hf : m ∉ p.messages)
    (r : RecipientKey) : p.board.entry (r, m) = none := by
  have hi : p.mailboxIndex.lookup (r, m) = none := by
    refine eq_none_iff_forall_ne_some.mpr fun s hs => hf ?_
    obtain ⟨row, _, hr, -⟩ := hp.addressed.mp hs
    exact mem_iff_lookup.mpr ⟨row, hr⟩
  simp [board, getEntry_eq, hi]

theorem guard_file (h : MessageAccepted p line mid md rt) (rp : Bool) :
    p.board.Guard rp (.file mid md.recipients) := by
  refine ⟨h.recipients_nodup, fun r => ?_⟩
  have he := entry_of_fresh hp h.fresh r
  exact ⟨he, fun hl => (mem_lane hp).mp hl he⟩

theorem guarded_message (h : MessageAccepted p line mid md rt) (rp : Bool) :
    Runs.Along act (Guard rp) p.board ((message mid md
        (p.supersededNotification line md)).actions line) := by
  have hf := guard_file hp h rp
  cases hs : md.supersedes with
  | none => simpa [actions, hs] using hf
  | some t =>
    obtain ⟨r, hr, hpe, hpr⟩ := h.superseding hs
    have he := board_entry_pending.mpr hpe
    have hu : (p.supersededNotification line md).map NotificationProjectionUpdate.record =
        (p.board.record (r, t)).map (supersededRecord line) := by
      simp [supersededNotification, hs, hr, board, comp_def]
    simp only [actions, hs, hr, hu, cons_append, nil_append,
      Runs.along_cons, Runs.Along.nil, and_true]
    refine ⟨⟨he, ⟨_, _, rfl⟩, ⟨line, rfl⟩, fun c hh => ?_⟩, hr ▸ hf.1, fun r' => ?_⟩
    · rw [supersessionNotificationIsPreWrite, show p.notifications.lookup _ = _ from hh] at hpr
      exact hpr
    · -- The superseded message is stored, the new one is not.
      have hne : (r', mid) ≠ (r, t) := by
        intro heq
        have hn := (hf.2 r').1
        rw [heq, he] at hn
        cases hn
      exact ⟨by simpa [act, update_of_ne hne] using (hf.2 r').1, (hf.2 r').2⟩

/-- The actions of an accepted row are guarded. -/
theorem actions_guarded {m : PreparedMutation} (h : Accepted p line rp m) :
    Runs.Along act (Guard rp) p.board (m.actions line) := by
  cases h with
  | message hch => exact guarded_message hp hch rp
  | @claim _ mid k hd hpe =>
    have he := board_entry_pending.mpr hpe
    cases hu : p.claimSettlement line k mid with
    | none =>
      exact ⟨⟨he, rfl, fun record held => claimSettlement_eq_none hu held⟩, trivial⟩
    | some =>
      obtain ⟨c, hh, hne, rfl⟩ := claimSettlement_eq_some hu
      refine ⟨⟨c, hh, .settled line he hne⟩, ⟨?_, rfl, fun record held => ?_⟩, trivial⟩
      · simpa [act, hold] using he
      · simp only [act, hold, update_self, some.injEq] at held
        subst held
        exact settledByClaim_idem _ _
  | deliveredDirect hd hpe held notified hdi =>
    exact ⟨⟨board_entry_pending.mpr hpe, _, held, notified, hdi⟩, trivial⟩
  | started hd had hn hq hpe unissued =>
    refine ⟨⟨board_entry_pending.mpr hpe, unissued, had.agent, ⟨line, rfl⟩, ?_⟩, trivial⟩
    intro c hc
    exact absurd (hc.symm.trans hn) (some_ne_none c)
  | moved hd had held hch =>
    exact ⟨⟨_, held, .transition line _ rfl rfl hch⟩, trivial⟩
  | reminded hd hpe held hs notified hdo hunu hre =>
    exact ⟨⟨_, held, .reminded line (board_entry_pending.mpr hpe) notified hdo hunu
      (not_mem_iff_lookup.mp (hs ▸ hre))⟩, trivial⟩
  | requeued hd agent hch =>
    refine ⟨⟨board_entry_pending.mpr hch.pending, hch.unissued, agent, ⟨line, rfl⟩, ?_⟩, trivial⟩
    intro c hc
    rw [show p.board.record _ = _ from hch.held, some.injEq] at hc
    exact hc ▸ hch.attention
  | requeuedAll hd hch =>
    refine guarded_requeues ?_ hch.distinctAttempts hch.distinctRecipients
    intro requeue hme
    obtain ⟨c, ha⟩ := hch.each requeue hme
    refine ⟨board_entry_pending.mpr ha.pending, ha.unissued,
      hch.agents requeue hme, fun held hh => ?_⟩
    rw [show p.board.record _ = _ from ha.held, some.injEq] at hh
    exact hh ▸ ha.attention
  | withdrawn hd hf held hs hun =>
    exact ⟨⟨_, held, .withdrawn line _ rfl rfl hs.symm hun⟩, trivial⟩
  | resolvedWithoutAction | resolved | barrierRetired => exact ⟨trivial, trivial⟩
  | stagedCleared hd had held hs hst hcl =>
    refine ⟨trivial, ⟨_, held, .stagedCleared line ?_ hst ?_⟩, trivial⟩
    · exact board_claimed.mpr hcl
    · simp [act, hs]
  | ackTimeout hd had held hs hat hcl =>
    refine ⟨trivial, ⟨_, held, .reconciled line ?_ hat ?_⟩, trivial⟩
    · obtain ⟨hr, hm, -⟩ := hp.noted held
      exact board_claimed.mpr (hr ▸ hm ▸ claimedByRecipient_of_afterWrite hcl)
    · simp [act, hs]
  | _ => exact trivial

/-! ## Runs -/

theorem Applies.accepted (h : Applies rp p line q) :
    ∃ m, p.prepareLineInner line rp = .ok m ∧ p.commitLine line m = some q ∧
      line.seq = p.head + 1 ∧ Accepted p line rp m ∧
      q.board = (m.actions line).foldl act p.board := by
  obtain ⟨m, hm, hq⟩ := applies_iff.mp h
  obtain ⟨hs, -, ha⟩ := accepted_of_prepare hm
  exact ⟨m, hm, hq, hs, ha, board_commit hp hs ha hq⟩

/-- An accepted row is a run of guarded actions on the board. -/
theorem Applies.board (h : Applies rp p line q) :
    ∃ m, p.prepareLineInner line rp = .ok m ∧ Runs.Along act (Guard rp) p.board (m.actions line) ∧
      q.board = (m.actions line).foldl act p.board := by
  obtain ⟨m, hm, -, -, ha, hb⟩ := h.accepted hp
  exact ⟨m, hm, actions_guarded hp ha, hb⟩

theorem Applies.transition (h : Applies rp p line q) {fact : NotificationTransition}
    (hda : line.data = some (.notification (.notificationTransition fact)))
    (hmo : fact.state ≠ .queued) :
    ∃ c, p.notification fact.recipient fact.messageId = some c ∧
      TransitionChecked fact rp (some c) ∧
      q.notification fact.recipient fact.messageId = some (transitionRecord line fact c) := by
  obtain ⟨m, hm, -, hb⟩ := h.board hp
  obtain hq | ⟨c, held, checked, rfl⟩ := (accepted_of_prepare hm).2.2.of_transition hda
  · exact absurd hq hmo
  · refine ⟨c, held, checked, ?_⟩
    have hr := congrFun (congrArg record hb) (fact.recipient, fact.messageId)
    refine .trans hr ?_
    simp [actions, act, hold]

end

/-- What guarded actions preserve holds on the board of every reachable
projection. -/
theorem Reachable.board_invariant {w : WorkspaceId} {inv : Board → Prop}
    (hi : inv (MailboxProjection.new w).board)
    (hpr : ∀ rp b a, inv b → b.Guard rp a → inv (b.act a))
    (h : Reachable w p) : inv p.board := by
  induction h with
  | new => exact hi
  | apply hbe ha ih =>
    obtain ⟨m, -, hg, hb⟩ := ha.board hbe.coherent
    rw [hb]
    exact hg.invariant inv (hpr _) ih

end Cyclops
