import Cyclops.Mailbox.Accepted

/-!
# What a row changes

The effect of an accepted row on each part of the projection that later results read: the entries
and their index, the messages, the current records, the barriers.
-/

namespace Cyclops

open Checked FiniteMap MailboxProjection PreparedMutation List Option

variable {p q : MailboxProjection} {line : LedgerLine}

/-! ## Entries -/

def NotificationRecord.key (record : NotificationRecord) : EntryKey :=
  (record.recipient, record.messageId)

namespace MailboxProjection

def entryAt (p : MailboxProjection) (recipient : RecipientKey) (seq : Nat) : Option MailboxEntry :=
  (p.mailboxes.lookup recipient).bind fun mailbox => mailbox.lookup seq

theorem getEntry_eq (p : MailboxProjection) (recipient : RecipientKey) (m : MessageId) :
    p.getEntry recipient m = (p.mailboxIndex.lookup (recipient, m)).bind (p.entryAt recipient) :=
  rfl

variable {r k : RecipientKey} {state : MailboxEntryState} {s : Nat}
  {rec : NotificationRecord}

theorem getEntry_of_pending {m : MessageId} (h : p.entryIsPending r m = true) :
    p.getEntry r m ≠ none := by
  intro hn
  rw [entryIsPending, hn] at h
  cases h

variable {mid : MessageId}

theorem setEntryState_eq_some (h : p.setEntryState k mid state = some q) :
    ∃ seq entry mailbox, p.mailboxIndex.lookup (k, mid) = some seq ∧
      p.mailboxes.lookup k = some mailbox ∧ mailbox.lookup seq = some entry ∧
      q = { p with
        mailboxes := p.mailboxes.insert k (mailbox.insert seq { entry with state }) } := by
  simp only [setEntryState, bind_eq_bind, bind_eq_some_iff, Option.pure_def, some.injEq] at h
  obtain ⟨seq, hs, mailbox, hm, entry, he, rfl⟩ := h
  exact ⟨seq, entry, mailbox, hs, hm, he, rfl⟩

theorem setEntryState_notifications (h : p.setEntryState k mid state = some q) :
    q.notifications = p.notifications := by
  obtain ⟨_, _, _, -, -, -, rfl⟩ := setEntryState_eq_some h
  rfl

theorem setEntryState_isSome (h : p.getEntry k mid ≠ none) (state : MailboxEntryState) :
    ∃ q, p.setEntryState k mid state = some q := by
  obtain ⟨e, he⟩ := ne_none_iff_exists'.mp h
  simp only [getEntry, bind_eq_bind, bind_eq_some_iff] at he
  obtain ⟨seq, hs, mailbox, hm, he⟩ := he
  simp only [setEntryState, hs, hm, he, bind_eq_bind, bind_some]
  exact ⟨_, rfl⟩

theorem entryAt_setEntryState (h : p.setEntryState k mid state = some q) : q.entryAt r s =
      if r = k ∧ p.mailboxIndex.lookup (k, mid) = some s then
        (p.entryAt r s).map fun entry => { entry with state }
      else p.entryAt r s := by
  obtain ⟨seq, entry, mailbox, hse, hm, he, rfl⟩ := setEntryState_eq_some h
  simp only [entryAt, hse]
  by_cases hr : r = k
  · subst hr
    by_cases hs : s = seq
    · subst hs
      simp [hm, he]
    · simp [hm, hs, Ne.symm hs]
  · simp [hr]

def newEntry (line : LedgerLine) (messageId : MessageId) (recipient : RecipientKey) :
    MailboxEntry :=
  { messageId, recipient, state := .pending, seq := line.seq, createdAt := line.ts }

theorem entryAt_addEntry : (p.addEntry line mid k).entryAt r s =
      if r = k ∧ s = line.seq then some (newEntry line mid k)
      else p.entryAt r s := by
  simp only [addEntry, entryAt]
  by_cases hr : r = k
  · subst hr
    by_cases hs : s = line.seq
    · simp [hs, newEntry]
    · cases h : p.mailboxes.lookup r <;> simp [hs, -AList.insert_empty]
  · simp [hr]

theorem entryAt_addEntries {ks : List RecipientKey} :
    (ks.foldl (fun q => q.addEntry line mid) p).entryAt r s =
      if r ∈ ks ∧ s = line.seq then some (newEntry line mid r)
      else p.entryAt r s := by
  induction ks generalizing p with
  | nil => simp
  | cons k rest ih =>
    rw [foldl_cons, ih, entryAt_addEntry]
    by_cases hs : s = line.seq
    · by_cases hr : r = k
      · simp [hs, hr]
      · simp [hr]
    · simp [hs]

theorem mailboxIndex_addEntries {m : MessageId} {ks : List RecipientKey} :
    (ks.foldl (fun q => q.addEntry line mid) p).mailboxIndex.lookup (r, m) =
      if r ∈ ks ∧ m = mid then some line.seq else p.mailboxIndex.lookup (r, m) := by
  induction ks generalizing p with
  | nil => simp
  | cons k rest ih =>
    rw [foldl_cons, ih]
    simp only [addEntry]
    by_cases hm : m = mid
    · by_cases hr : r = k
      · simp [hm, hr]
      · simp [hr]
    · simp [hm]

theorem addEntries_frame (mid : MessageId) (ks : List RecipientKey) :
    ks.foldl (fun q => q.addEntry line mid) p = { p with
        mailboxes := (ks.foldl (fun q => q.addEntry line mid) p).mailboxes
        mailboxIndex :=
          (ks.foldl (fun q => q.addEntry line mid) p).mailboxIndex } := by
  induction ks generalizing p with
  | nil => rfl
  | cons k rest ih =>
    rw [foldl_cons, ih]
    rfl

/-! ## Messages -/

def fileMessage (p : MailboxProjection) (line : LedgerLine) (messageId : MessageId)
    (metadata : MessageMetadata) : MailboxProjection :=
  let filed := metadata.recipients.foldl (fun q => q.addEntry line messageId)
    (p.indexClientKey messageId metadata)
  { filed with messages := filed.messages.insert messageId line }

/-- A message row closes what it supersedes, stores the message, and updates the
attempt of what it superseded. -/
theorem commitMessage_eq {md : MessageMetadata} {u : Option NotificationProjectionUpdate} :
    p.commitMessage line mid md u = (p.closeSuperseded line mid md).map fun c =>
        (c.fileMessage line mid md).putUpdate u := by
  unfold commitMessage
  cases p.closeSuperseded line mid md <;> cases u <;> rfl

section FileMessage

variable {mid : MessageId} {md : MessageMetadata}

theorem indexClientKey_frame : p.indexClientKey mid md =
      { p with idempotencyIndex := (p.indexClientKey mid md).idempotencyIndex } := by
  unfold indexClientKey
  split <;> rfl

theorem fileMessage_frame : p.fileMessage line mid md = { p with
        messages := p.messages.insert mid line
        idempotencyIndex := (p.indexClientKey mid md).idempotencyIndex
        mailboxes := (p.fileMessage line mid md).mailboxes
        mailboxIndex := (p.fileMessage line mid md).mailboxIndex } := by
  unfold fileMessage
  rw [addEntries_frame, indexClientKey_frame]

theorem entryAt_fileMessage : (p.fileMessage line mid md).entryAt r s =
      if r ∈ md.recipients ∧ s = line.seq then some (newEntry line mid r)
      else p.entryAt r s := by
  have hk : (p.indexClientKey mid md).entryAt r s = p.entryAt r s := by
    rw [indexClientKey_frame]
    rfl
  rw [← hk]
  exact entryAt_addEntries

theorem mailboxIndex_fileMessage {m : MessageId} :
    (p.fileMessage line mid md).mailboxIndex.lookup (r, m) =
      if r ∈ md.recipients ∧ m = mid then some line.seq
      else p.mailboxIndex.lookup (r, m) := by
  have hk : (p.indexClientKey mid md).mailboxIndex = p.mailboxIndex := by
    rw [indexClientKey_frame]
  rw [← hk]
  exact mailboxIndex_addEntries

theorem idempotencyIndex_fileMessage {sn : RecipientKey} {key : String} :
    (p.fileMessage line mid md).idempotencyIndex.lookup (sn, key) =
      if sn = md.sender ∧ md.clientKey = some key then
        some (mid, md.requestDigest)
      else p.idempotencyIndex.lookup (sn, key) := by
  rw [fileMessage_frame]
  unfold indexClientKey
  cases hke : md.clientKey with
  | none => simp
  | some used =>
    by_cases hs : sn = md.sender <;> by_cases hk : key = used <;>
      simp [eq_comm]

end FileMessage

/-! ## Records and barriers -/

theorem refreshBarrier_frame : p.refreshBarrier rec = { p with
        activeNotificationBarriers := (p.refreshBarrier rec).activeNotificationBarriers } := by
  unfold refreshBarrier
  split <;> rfl

theorem trackBarrier_frame : p.trackBarrier line rec = { p with
        activeNotificationBarriers := (p.trackBarrier line rec).activeNotificationBarriers
        notificationWriteSequences := (p.trackBarrier line rec).notificationWriteSequences } := by
  unfold trackBarrier
  split
  · rfl
  · split
    · rfl
    · rw [refreshBarrier_frame]

theorem trackBarrier_of_state (hw : rec.state ≠ .writing) (hb : rec.state ≠ .blockedPreWrite) :
    p.trackBarrier line rec = p.refreshBarrier rec := by
  simp [trackBarrier, isBoundWrite, isProvenUnwritten, hw, hb]

theorem trackBarrier_settled {c : NotificationRecord}
    (h : c.state.settledByClaim c.transport ≠ c.state) :
    p.trackBarrier line (settledRecord line c) = p.refreshBarrier (settledRecord line c) := by
  have hs : (settledRecord line c).state = c.state.settledByClaim c.transport := rfl
  refine trackBarrier_of_state ?_ ?_ <;>
    rcases settledByClaim_cases h with h | h <;> simp [hs, h]

theorem trackBarrier_queued {a : NotificationAttemptId} (h : a ∉ p.activeNotificationBarriers) :
    p.trackBarrier line (queuedRecord line a mid k) = p :=
  if_neg h

theorem mem_barriers_trackBarrier {a : NotificationAttemptId}
    (h : a ∈ (p.trackBarrier line rec).activeNotificationBarriers) :
    a = rec.attemptId ∨ a ∈ p.activeNotificationBarriers := by
  simp only [mem_iff_lookup] at h ⊢
  obtain ⟨active, h⟩ := h
  unfold trackBarrier crossWriteBoundary uncrossWriteBoundary refreshBarrier at h
  by_cases ha : a = rec.attemptId
  · exact .inl ha
  · split at h
    · simp only [lookup_insert_ite, if_neg ha, lookup_retain] at h
      exact .inr ⟨active, h.1⟩
    · split at h
      · simp only [lookup_erase_ite, if_neg ha] at h
        exact .inr ⟨active, h⟩
      · split at h
        · simp only [lookup_insert_ite, if_neg ha] at h
          exact .inr ⟨active, h⟩
        · exact .inr ⟨active, h⟩

end MailboxProjection

/-! ## One row -/

theorem MailboxProjection.startAttempts_frame (rs : List (EntryKey × NotificationRecord)) :
    rs.foldl (fun q requeued => q.startAttempt requeued.1 requeued.2) p = { p with
        notificationAttempts := (rs.foldl
          (fun q requeued => q.startAttempt requeued.1 requeued.2) p).notificationAttempts
        notifications := (rs.foldl
          (fun q requeued => q.startAttempt requeued.1 requeued.2) p).notifications } := by
  induction rs generalizing p with
  | nil => rfl
  | cons requeued rest ih =>
    rw [foldl_cons, ih]
    rfl

def PreparedMutation.filed (line : LedgerLine) (messages : Map MessageId LedgerLine) :
    PreparedMutation → Map MessageId LedgerLine
  | .message messageId _ _ => messages.insert messageId line
  | _ => messages

def PreparedMutation.sequenced (line : LedgerLine) (claims : Map EntryKey Nat) :
    PreparedMutation → Map EntryKey Nat
  | .claim messageId recipient _ _ => claims.insert (recipient, messageId) line.seq
  | _ => claims

def PreparedMutation.resolution (m : PreparedMutation) : Bool :=
  m matches .notificationResolutionIntent _ _ _ | .notificationResolutionIntentWithdrawn _ |
    .notificationResolvedWithoutTerminalAction _ _ | .notificationResolved _ _

theorem commitLine_frame {m : PreparedMutation} (h : p.commitLine line m = some q) :
    q.head = line.seq ∧ q.workspaceId = p.workspaceId ∧ q.messages = m.filed line p.messages ∧
      q.claimSequences = m.sequenced line p.claimSequences ∧
      (m.resolution = false →
        q.resolvedAttempts = p.resolvedAttempts ∧ q.resolutionIntents = p.resolutionIntents) := by
  cases m with
  | message mi md u =>
    rw [commitLine, commitMessage_eq, map_eq_some_iff] at h
    obtain ⟨c, hc, rfl⟩ := h
    have hf : c.head = line.seq ∧ c.workspaceId = p.workspaceId ∧
        c.messages = p.messages ∧ c.claimSequences = p.claimSequences ∧
        c.resolvedAttempts = p.resolvedAttempts ∧
        c.resolutionIntents = p.resolutionIntents := by
      unfold closeSuperseded at hc
      split at hc
      · cases hc
        exact ⟨rfl, rfl, rfl, rfl, rfl, rfl⟩
      · obtain ⟨_, -, hs⟩ := bind_eq_some_iff.mp hc
        obtain ⟨_, _, _, -, -, -, rfl⟩ := setEntryState_eq_some hs
        exact ⟨rfl, rfl, rfl, rfl, rfl, rfl⟩
    obtain ⟨hh, hw, hm, hcl, hr⟩ := hf
    rw [fileMessage_frame, filed, ← hm]
    cases u <;> exact ⟨hh, hw, rfl, hcl, fun _ => hr⟩
  | claim mi recipient claimant u =>
    obtain ⟨claimed, hs, hq⟩ := bind_eq_some_iff.mp h
    obtain ⟨_, _, _, -, -, -, rfl⟩ := setEntryState_eq_some hs
    cases hq
    cases u with
    | none => exact ⟨rfl, rfl, rfl, rfl, fun _ => ⟨rfl, rfl⟩⟩
    | some =>
      rw [putSettled, refreshBarrier_frame]
      exact ⟨rfl, rfl, rfl, rfl, fun _ => ⟨rfl, rfl⟩⟩
  | deliveredDirect =>
    obtain ⟨_, _, _, -, -, -, rfl⟩ := setEntryState_eq_some h
    exact ⟨rfl, rfl, rfl, rfl, fun _ => ⟨rfl, rfl⟩⟩
  | notification key rec n =>
    cases h
    rw [commitNotification, trackBarrier_frame]
    cases n <;> exact ⟨rfl, rfl, rfl, rfl, fun _ => ⟨rfl, rfl⟩⟩
  | notificationRequeues =>
    cases h
    rw [startAttempts_frame]
    exact ⟨rfl, rfl, rfl, rfl, fun _ => ⟨rfl, rfl⟩⟩
  | notificationResolutionIntent | notificationResolutionIntentWithdrawn
  | notificationResolvedWithoutTerminalAction | notificationResolved =>
    cases h
    exact ⟨rfl, rfl, rfl, rfl, nofun⟩
  | _ =>
    cases h
    exact ⟨rfl, rfl, rfl, rfl, fun _ => ⟨rfl, rfl⟩⟩

def Applies [DigestScheme] (replaying : Bool) (p : MailboxProjection) (line : LedgerLine)
    (q : MailboxProjection) : Prop :=
  p.applyInner replaying line = .ok q

theorem applies_iff [DigestScheme] {rp : Bool} : Applies rp p line q ↔
      ∃ m, p.prepareLineInner line rp = .ok m ∧ p.commitLine line m = some q := by
  unfold Applies applyInner
  cases p.prepareLineInner line rp with
  | error => exact ⟨fun h => (nomatch h), fun ⟨_, h, _⟩ => (nomatch h)⟩
  | ok m =>
    rw [orRefuse_eq_ok]
    exact ⟨fun h => ⟨m, rfl, h⟩, fun ⟨_, hm, h⟩ => by cases hm; exact h⟩

/-- A projection that accepted rows lead to, live or read back. -/
inductive Reachable [DigestScheme] (workspaceId : WorkspaceId) : MailboxProjection → Prop
  | new : Reachable workspaceId (.new workspaceId)
  | apply {replaying : Bool} {p q : MailboxProjection} {line : LedgerLine}
      (before : Reachable workspaceId p) (applies : Applies replaying p line q) :
      Reachable workspaceId q

end Cyclops
