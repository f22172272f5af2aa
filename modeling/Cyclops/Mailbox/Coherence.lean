import Cyclops.Mailbox.Views

/-!
# Coherence of the projection

The maps of the projection describe one set of messages.
-/

namespace Cyclops

open Checked FiniteMap MailboxProjection List Option

/-- A message as it is stored: what its row went through when it was accepted. -/
structure StoredMessage [DigestScheme] (workspaceId : WorkspaceId) (messageId : MessageId)
    (line : LedgerLine) (metadata : MessageMetadata) (replyTo : Option MessageId) : Prop where
  kind : line.kind = .msg ∨ line.kind = .fyi
  id_text : line.id = messageId.text
  data : line.data = some (.metadata metadata)
  sender_workspace : metadata.sender.workspaceId = workspaceId
  nonempty : metadata.recipients ≠ []
  labels : presentationLabels metadata.recipients metadata.presentation =
    .ok (line.sentFrom, line.sentTo)
  recipients_workspace : ∀ r ∈ metadata.recipients, r.workspaceId = workspaceId
  recipients_nodup : metadata.recipients.Nodup
  reply : optionalMessageId line.replyTo = .ok replyTo
  digest : metadata.requestDigest =
    RequestDigest.compute line.kind metadata.sender metadata.recipients
      ⟨line.subject, metadata.summary, line.body⟩ replyTo metadata.supersedes

/-- The maps of a projection agree. -/
structure Coherent [DigestScheme] (p : MailboxProjection) : Prop where
  /-- An entry says where it is, and the index says so too. -/
  filed : ∀ {r s e}, p.entryAt r s = some e →
    e.recipient = r ∧ e.seq = s ∧ p.mailboxIndex.lookup (r, e.messageId) = some s
  found : ∀ {r m s}, p.mailboxIndex.lookup (r, m) = some s →
    ∃ e, p.entryAt r s = some e ∧ e.messageId = m
  addressed : ∀ {r m s}, p.mailboxIndex.lookup (r, m) = some s ↔
    ∃ line metadata, p.messages.lookup m = some line ∧ line.data = some (.metadata metadata) ∧
      line.seq = s ∧ r ∈ metadata.recipients
  stored : ∀ {m line}, p.messages.lookup m = some line →
    ∃ metadata replyTo, StoredMessage p.workspaceId m line metadata replyTo
  numbered : ∀ {m line}, p.messages.lookup m = some line → 0 < line.seq ∧ line.seq ≤ p.head
  distinct : ∀ {m line m' line'}, p.messages.lookup m = some line →
    p.messages.lookup m' = some line' → line.seq = line'.seq → m = m'
  keyed : ∀ {sender key m digest}, p.idempotencyIndex.lookup (sender, key) = some (m, digest) ↔
    ∃ line metadata, p.messages.lookup m = some line ∧ line.data = some (.metadata metadata) ∧
      metadata.sender = sender ∧ metadata.clientKey = some key ∧ metadata.requestDigest = digest
  noted : ∀ {r m record}, p.notifications.lookup (r, m) = some record →
    record.recipient = r ∧ record.messageId = m ∧ p.mailboxIndex.lookup (r, m) ≠ none ∧
      record.attemptId ∈ p.notificationAttempts
  single : ∀ {key key' record record'}, p.notifications.lookup key = some record →
    p.notifications.lookup key' = some record' → record.attemptId = record'.attemptId → key = key'
  barred : ∀ {a}, a ∈ p.activeNotificationBarriers → a ∈ p.notificationAttempts

variable [DigestScheme] {p q : MailboxProjection} {line : LedgerLine}

theorem Coherent.new (w : WorkspaceId) : Coherent (.new w) where
  filed := fun h => (nomatch h)
  found := fun h => (nomatch h)
  addressed := ⟨fun h => (nomatch h), fun ⟨_, _, h, _⟩ => (nomatch h)⟩
  stored := fun h => (nomatch h)
  numbered := fun h => (nomatch h)
  distinct := fun h => (nomatch h)
  keyed := ⟨fun h => (nomatch h), fun ⟨_, _, h, _⟩ => (nomatch h)⟩
  noted := fun h => (nomatch h)
  single := fun h => (nomatch h)
  barred := fun h => absurd h (AList.notMem_empty _)

namespace Coherent

/-! ## What coherence says about reads -/

variable {r : RecipientKey} {m : MessageId} {metadata : MessageMetadata} {key : EntryKey}
  {mid : MessageId}

theorem getEntry_ne_none (hp : Coherent p) :
    p.getEntry r m ≠ none ↔ p.mailboxIndex.lookup (r, m) ≠ none := by
  rw [getEntry_eq]
  cases h : p.mailboxIndex.lookup (r, m) with
  | none => simp
  | some =>
    obtain ⟨e, he, -⟩ := hp.found h
    simp [he]

variable {e : MailboxEntry} {a : NotificationAttemptId}
  {c rec : NotificationRecord} {replyTo : Option MessageId} {k : RecipientKey}

section

variable (hp : Coherent p)

include hp

theorem getEntry_spec (h : p.getEntry r m = some e) :
    e.recipient = r ∧ e.messageId = m ∧ p.mailboxIndex.lookup (r, m) = some e.seq := by
  rw [getEntry_eq, bind_eq_some_iff] at h
  obtain ⟨s, hs, he⟩ := h
  obtain ⟨hr, hse, -⟩ := hp.filed he
  obtain ⟨e', he', hm⟩ := hp.found hs
  rw [he, some.injEq] at he'
  exact ⟨hr, he' ▸ hm, hse ▸ hs⟩

theorem getEntry_of_recipient {row : LedgerLine} (hro : p.messages.lookup m = some row)
    (hda : row.data = some (.metadata metadata)) (hr : r ∈ metadata.recipients) :
    ∃ e, p.getEntry r m = some e := by
  have hi := hp.addressed.mpr ⟨row, metadata, hro, hda, rfl, hr⟩
  exact ne_none_iff_exists'.mp (hp.getEntry_ne_none.mpr (by simp [hi]))

theorem stored_of_getEntry (h : p.getEntry r m ≠ none) :
    m ∈ p.messages ∧ r.workspaceId = p.workspaceId := by
  obtain ⟨s, hs⟩ := ne_none_iff_exists'.mp (hp.getEntry_ne_none.mp h)
  obtain ⟨row, metadata, hr, hda, -, hm⟩ := hp.addressed.mp hs
  obtain ⟨md', _, hst⟩ := hp.stored hr
  have hsa : md' = metadata := by simpa [hda] using hst.data.symm
  exact ⟨mem_iff_lookup.mpr ⟨row, hr⟩, hst.recipients_workspace r (hsa ▸ hm)⟩

theorem mem_getMailbox : e ∈ p.getMailbox r ↔ p.getEntry r e.messageId = some e := by
  have hat : e ∈ p.getMailbox r ↔ ∃ s, p.entryAt r s = some e := by
    unfold getMailbox entryAt
    cases p.mailboxes.lookup r with
    | none => simp
    | some =>
      simp only [List.mem_map, bind_some, ← mem_ordered]
      exact ⟨fun ⟨⟨s, _⟩, hs, h⟩ => ⟨s, h ▸ hs⟩, fun ⟨s, hs⟩ => ⟨⟨s, e⟩, hs, rfl⟩⟩
  rw [hat, getEntry_eq]
  constructor
  · rintro ⟨s, hs⟩
    rw [(hp.filed hs).2.2, bind_some, hs]
  · intro h
    obtain ⟨s, -, hs⟩ := bind_eq_some_iff.mp h
    exact ⟨s, hs⟩

/-! ## Elementary changes -/

theorem advanced (h : line.seq = p.head + 1) : Coherent (p.advanced line) :=
  { hp with
    numbered := fun hm => ⟨(hp.numbered hm).1,
      (hp.numbered hm).2.trans (show p.head ≤ line.seq by omega)⟩ }

theorem barriers {barriers : Map NotificationAttemptId NotificationRecord}
    (h : ∀ a ∈ barriers, a ∈ p.notificationAttempts) :
    Coherent { p with activeNotificationBarriers := barriers } :=
  { hp with barred := fun ha => h _ ha }

theorem releaseBarrier : Coherent (p.releaseBarrier a) :=
  hp.barriers fun _ ha => hp.barred (AList.mem_erase.mp ha).2

theorem setEntryState {state : MailboxEntryState} (h : p.setEntryState r m state = some q) :
    Coherent q := by
  have hen := fun r' s => entryAt_setEntryState (r := r') (s := s) h
  obtain ⟨seq, entry, mailbox, -, -, -, rfl⟩ := setEntryState_eq_some h
  refine { hp with filed := ?_, found := ?_ }
  · intro r' s e he
    rw [hen] at he
    split at he
    · obtain ⟨e', he', rfl⟩ := map_eq_some_iff.mp he
      exact (hp.filed he' :)
    · exact hp.filed he
  · intro r' m' s hs
    obtain ⟨e, he, hm⟩ := hp.found hs
    rw [hen]
    split
    · exact ⟨{ e with state }, by rw [he]; rfl, hm⟩
    · exact ⟨e, he, hm⟩

theorem putNotification (held : p.notifications.lookup key = some c)
    (rec : NotificationRecord) (hs : rec.attemptId = c.attemptId)
    (hr : rec.recipient = key.1) (hm : rec.messageId = key.2) :
    Coherent (p.putNotification key rec) := by
  have hc := hp.noted (r := key.1) (m := key.2) held
  refine { hp with noted := ?_, single := ?_ }
  · intro r' m' rec' h
    simp only [MailboxProjection.putNotification, lookup_insert_ite] at h
    split at h
    · next hke =>
      cases h
      cases hke
      exact ⟨hr, hm, hc.2.2.1, hs ▸ hc.2.2.2⟩
    · exact hp.noted h
  · intro k k' record₁ record₂ h₁ h₂ heq
    simp only [MailboxProjection.putNotification, lookup_insert_ite] at h₁ h₂
    split at h₁ <;> split at h₂
    · next hk hk' => rw [hk, hk']
    · next hk hk' =>
      cases h₁
      rw [hk]
      exact hp.single held h₂ (hs ▸ heq)
    · next hk hk' =>
      cases h₂
      rw [hk']
      exact hp.single h₁ held (hs ▸ heq)
    · exact hp.single h₁ h₂ heq

theorem startAttempt (hf : p.getEntry key.1 key.2 ≠ none)
    (hu : rec.attemptId ∉ p.notificationAttempts) (hr : rec.recipient = key.1)
    (hm : rec.messageId = key.2) :
    Coherent (p.startAttempt key rec) := by
  refine { hp with noted := ?_, single := ?_, barred := ?_ }
  · intro r' m' rec' h
    simp only [MailboxProjection.startAttempt, lookup_insert_ite] at h
    split at h
    · next hke =>
      cases h
      cases hke
      exact ⟨hr, hm, hp.getEntry_ne_none.mp hf, Finset.mem_insert_self _ _⟩
    · obtain ⟨h₁, h₂, h₃, h₄⟩ := hp.noted h
      exact ⟨h₁, h₂, h₃, Finset.mem_insert_of_mem h₄⟩
  · intro k k' record₁ record₂ h₁ h₂ heq
    simp only [MailboxProjection.startAttempt, lookup_insert_ite] at h₁ h₂
    split at h₁ <;> split at h₂
    · next hk hk' => rw [hk, hk']
    · cases h₁
      exact absurd (heq ▸ (hp.noted h₂).2.2.2) hu
    · cases h₂
      exact absurd (heq ▸ (hp.noted h₁).2.2.2) hu
    · exact hp.single h₁ h₂ heq
  · intro a ha
    exact Finset.mem_insert_of_mem (hp.barred ha)

theorem fileMessage (stored : StoredMessage p.workspaceId mid line metadata replyTo)
    (hf : p.messages.lookup mid = none)
    (hl : ∀ {m row}, p.messages.lookup m = some row → row.seq < line.seq)
    (hseq : 0 < line.seq) (seq_le : line.seq ≤ p.head)
    (hu : ∀ key, metadata.clientKey = some key → p.idempotencyIndex.lookup (metadata.sender,
      key) = none) :
    Coherent (p.fileMessage line mid metadata) := by
  have hme : ∀ {m row}, (p.fileMessage line mid metadata).messages.lookup m = some row ↔
      (m = mid ∧ row = line) ∨ (m ≠ mid ∧ p.messages.lookup m = some row) := by
    intro m row
    rw [fileMessage_frame]
    simp only [lookup_insert_ite]
    split
    · next hm => simp [hm, eq_comm]
    · next hm => simp [hm]
  have hda : ∀ {other}, line.data = some (.metadata other) ↔ other = metadata := by
    intro other
    rw [stored.data]
    simp [eq_comm]
  have hne : ∀ {m row}, p.messages.lookup m = some row → m ≠ mid := by
    rintro m row hro rfl
    rw [hf] at hro
    cases hro
  have hpo : ∀ {m} (P : LedgerLine → MessageMetadata → Prop),
      (∃ row other, (p.fileMessage line mid metadata).messages.lookup m = some row ∧
        row.data = some (.metadata other) ∧ P row other) ↔
      (m = mid ∧ P line metadata) ∨ ∃ row other, p.messages.lookup m = some row ∧
        row.data = some (.metadata other) ∧ P row other := by
    intro m P
    simp only [hme]
    constructor
    · rintro ⟨row, other, ⟨rfl, rfl⟩ | ⟨-, hro⟩, ho, hP⟩
      · exact .inl ⟨rfl, hda.mp ho ▸ hP⟩
      · exact .inr ⟨row, other, hro, ho, hP⟩
    · rintro (⟨rfl, hP⟩ | ⟨row, other, hro, ho, hP⟩)
      · exact ⟨line, metadata, .inl ⟨rfl, rfl⟩, stored.data, hP⟩
      · exact ⟨row, other, .inr ⟨hne hro, hro⟩, ho, hP⟩
  -- No old message has the new number, and no old entry is at it.
  have hold : ∀ {r s m}, p.mailboxIndex.lookup (r, m) = some s → s < line.seq ∧ m ≠ mid := by
    intro r s m h
    obtain ⟨row, -, hro, -, rfl, -⟩ := hp.addressed.mp h
    exact ⟨hl hro, hne hro⟩
  refine {
    filed := ?_, found := ?_, addressed := ?_, stored := ?_, numbered := ?_, distinct := ?_
    keyed := ?_, noted := ?_, single := ?_, barred := ?_ }
  · intro r s e h
    rw [mailboxIndex_fileMessage]
    rw [entryAt_fileMessage] at h
    split at h
    · next hrs =>
      cases h
      exact ⟨rfl, hrs.2.symm, by rw [if_pos ⟨hrs.1, rfl⟩, hrs.2]⟩
    · obtain ⟨hr, hs, hi⟩ := hp.filed h
      exact ⟨hr, hs, by rw [if_neg fun hm => (hold hi).2 hm.2, hi]⟩
  · intro r m s h
    rw [mailboxIndex_fileMessage] at h
    simp only [entryAt_fileMessage]
    split at h
    · next hrm =>
      cases h
      exact ⟨_, if_pos ⟨hrm.1, rfl⟩, hrm.2.symm⟩
    · obtain ⟨e, he, hm⟩ := hp.found h
      exact ⟨e, by rw [if_neg fun hs => (hold h).1.ne hs.2, he], hm⟩
  · intro r m s
    rw [mailboxIndex_fileMessage, hpo fun row other => row.seq = s ∧ r ∈ other.recipients,
      ← hp.addressed]
    split
    · next hrm =>
      have hn : p.mailboxIndex.lookup (r, m) ≠ some s := fun hs => (hold hs).2 hrm.2
      simp [hrm, hn]
    · next hrm => exact (or_iff_right fun h => hrm ⟨h.2.2, h.1⟩).symm
  · intro m row h
    rcases hme.mp h with ⟨rfl, rfl⟩ | ⟨-, h⟩
    · exact ⟨metadata, replyTo, by rw [fileMessage_frame]; exact stored⟩
    · rw [fileMessage_frame]
      exact hp.stored h
  · intro m row h
    have hh : (p.fileMessage line mid metadata).head = p.head := by
      rw [fileMessage_frame]
      rfl
    rw [hh]
    rcases hme.mp h with ⟨rfl, rfl⟩ | ⟨-, h⟩
    · exact ⟨hseq, seq_le⟩
    · exact hp.numbered h
  · intro m row m' row' h h' hse
    rcases hme.mp h with ⟨rfl, rfl⟩ | ⟨-, hro⟩ <;>
      rcases hme.mp h' with ⟨rfl, rfl⟩ | ⟨-, hr'⟩
    · rfl
    · exact absurd hse.symm (hl hr').ne
    · exact absurd hse (hl hro).ne
    · exact hp.distinct hro hr' hse
  · intro sn key m d
    rw [idempotencyIndex_fileMessage, hpo fun _ other => other.sender = sn ∧
      other.clientKey = some key ∧ other.requestDigest = d, ← hp.keyed]
    split
    · next hk =>
      have hn : p.idempotencyIndex.lookup (sn, key) = none := hk.1 ▸ hu key hk.2
      simp [hk, hn, eq_comm]
    · next hk => exact (or_iff_right fun h => hk ⟨h.2.1.symm, h.2.2.1⟩).symm
  · intro r m rec h
    rw [mailboxIndex_fileMessage]
    rw [fileMessage_frame] at h ⊢
    obtain ⟨hr, hm, hi, his⟩ := hp.noted h
    refine ⟨hr, hm, ?_, his⟩
    split
    · simp
    · exact hi
  · intro k k' rec r' h h' heq
    rw [fileMessage_frame] at h h'
    exact hp.single h h' heq
  · intro a ha
    rw [fileMessage_frame] at ha ⊢
    exact hp.barred ha

theorem trackBarrier (hi : rec.attemptId ∈ p.notificationAttempts) :
    Coherent (p.trackBarrier line rec) := by
  have hb : ∀ {a}, a ∈ (p.trackBarrier line rec).activeNotificationBarriers →
      a ∈ p.notificationAttempts := fun ha =>
    (mem_barriers_trackBarrier ha).elim (· ▸ hi) hp.barred
  rw [trackBarrier_frame]
  exact { hp with barred := hb }

/-! ## Rows -/

theorem move (held : p.notifications.lookup key = some c) (line : LedgerLine)
    (rec : NotificationRecord) (hs : rec.attemptId = c.attemptId)
    (hr : rec.recipient = key.1) (hm : rec.messageId = key.2) :
    Coherent ((p.trackBarrier line rec).putNotification key rec) := by
  have hi := (hp.noted (r := key.1) (m := key.2) held).2.2.2
  refine (hp.trackBarrier (hs ▸ hi)).putNotification ?_ rec hs hr hm
  rw [trackBarrier_frame]
  exact held

theorem commitStart (hf : p.getEntry k mid ≠ none) (hu : a ∉ p.notificationAttempts) :
    Coherent (p.commitNotification line (k, mid) (queuedRecord line a mid k) true) := by
  unfold commitNotification
  rw [trackBarrier_queued fun hb => hu (hp.barred hb)]
  exact hp.startAttempt hf hu rfl rfl

theorem startAttempts {requeues : List NotificationRequeue}
    (hf : ∀ requeue ∈ requeues, p.getEntry requeue.recipient mid ≠ none)
    (hu : ∀ requeue ∈ requeues, requeue.attemptId ∉ p.notificationAttempts)
    (hd : (requeues.map NotificationRequeue.attemptId).Nodup) :
    Coherent ((requeues.map (requeuedRecord line mid)).foldl
      (fun q requeued => q.startAttempt requeued.1 requeued.2) p) := by
  induction requeues generalizing p with
  | nil => exact hp
  | cons requeue rest ih =>
    rw [map_cons, nodup_cons] at hd
    refine ih (hp.startAttempt (hf _ mem_cons_self) (hu _ mem_cons_self) rfl rfl)
      (fun r hr => hf r (mem_cons_of_mem _ hr)) ?_ hd.2
    intro r hr hm
    rcases Finset.mem_insert.mp hm with heq | hm
    · exact hd.1 (mem_map.mpr ⟨r, hr, heq⟩)
    · exact hu r (mem_cons_of_mem _ hr) hm

theorem closeSuperseded (line : LedgerLine) (mid : MessageId)
    (hpe : ∀ t, metadata.supersedes = some t → ∃ r, metadata.recipients = [r] ∧
      p.getEntry r t ≠ none)
    :
    ∃ closed, p.closeSuperseded line mid metadata = some closed ∧ Coherent closed ∧
      ∃ mailboxes, closed = { p with mailboxes } := by
  unfold MailboxProjection.closeSuperseded
  cases hs : metadata.supersedes with
  | none => exact ⟨p, rfl, hp, p.mailboxes, rfl⟩
  | some t =>
    obtain ⟨r, hr, he⟩ := hpe t hs
    obtain ⟨closed, hc⟩ := setEntryState_isSome he (.superseded mid line.ts)
    obtain ⟨seq, entry, mailbox, -, -, -, hf⟩ :=
      setEntryState_eq_some hc
    exact ⟨closed, by simpa [hr] using hc, hp.setEntryState hc, _, hf⟩

theorem putSuperseded (hs : q.notifications = p.notifications) :
    Coherent (p.putUpdate (q.supersededNotification line metadata)) := by
  unfold supersededNotification
  split
  · next target r rest _ _ =>
    cases hh : q.notifications.lookup (r, target) with
    | none => exact hp
    | some =>
      rw [hs] at hh
      obtain ⟨hr, hm, -⟩ := hp.noted hh
      exact hp.putNotification hh _ rfl hr hm
  · exact hp

theorem commitMessage (hs : line.seq = p.head + 1)
    (h : MessageAccepted p line mid metadata replyTo) :
    ∃ q, p.commitLine line (.message mid metadata (p.supersededNotification line metadata)) =
      some q ∧ Coherent q := by
  have ha := hp.advanced hs
  obtain ⟨closed, hcl, hc, mailboxes, rfl⟩ := ha.closeSuperseded line mid fun t ht =>
      have ⟨r, hr, hpe, _⟩ := h.superseding ht
      ⟨r, hr, getEntry_of_pending hpe⟩
  refine ⟨_, by rw [commitLine, commitMessage_eq, hcl]; rfl, ?_⟩
  refine .putSuperseded (q := p) (hc.fileMessage { h with }
    (not_mem_iff_lookup.mp h.fresh) ?_ (by omega) le_rfl h.unusedKey) ?_
  · intro m row hro
    have := (hp.numbered hro).2
    omega
  · rw [fileMessage_frame]
    rfl

theorem putSettled (hs : q.notifications = p.notifications) :
    Coherent (p.putSettled (q.claimSettlement line k mid)) := by
  cases hu : q.claimSettlement line k mid with
  | none => exact hp
  | some =>
    obtain ⟨c, hh, hne, rfl⟩ := claimSettlement_eq_some hu
    rw [hs] at hh
    obtain ⟨hr, hm, -⟩ := hp.noted hh
    have ht := hp.move hh line (settledRecord line c) rfl hr hm
    rw [trackBarrier_settled hne] at ht
    exact ht

theorem commit {rp : Bool} {m : PreparedMutation} (hse : line.seq = p.head + 1)
    (h : Accepted p line rp m) :
    ∃ q, p.commitLine line m = some q ∧ Coherent q := by
  have ha := hp.advanced hse
  cases h with
  | message hc => exact hp.commitMessage hse hc
  | @claim _ mid k hd hpe =>
    let s : MailboxProjection :=
      { p.advanced line with
        claimSequences := (p.advanced line).claimSequences.insert (k, mid) line.seq }
    have hs : Coherent s := { ha with }
    obtain ⟨q, hq⟩ := setEntryState_isSome (p := s) (getEntry_of_pending hpe) (.claimed k line.ts)
    refine ⟨_, by rw [commitLine, commitClaim, hq]; rfl, ?_⟩
    exact (hs.setEntryState hq).putSettled (setEntryState_notifications hq).symm
  | @deliveredDirect attempt _ hd hpe =>
    obtain ⟨q, hq⟩ := setEntryState_isSome (p := p.advanced line) (getEntry_of_pending hpe)
      (.deliveredDirect attempt.attemptId line.ts)
    exact ⟨q, hq, ha.setEntryState hq⟩
  | started hd had hn hqu hpe hu =>
    exact ⟨_, rfl, ha.commitStart had.filed hu⟩
  | moved hd had held hc =>
    exact ⟨_, rfl, ha.move held line _ hc.same.symm rfl rfl⟩
  | @reminded attempt c hd hpe held =>
    obtain ⟨hr, hm, -⟩ := hp.noted held
    exact ⟨_, rfl, ha.move held line _ rfl hr hm⟩
  | requeued hd hag hc =>
    exact ⟨_, rfl, ha.commitStart (getEntry_of_pending hc.pending) hc.unissued⟩
  | requeuedAll hd hc =>
    refine ⟨_, rfl, ha.startAttempts ?_ ?_ hc.distinctAttempts⟩
    · intro requeue hme
      obtain ⟨_, hac⟩ := hc.each requeue hme
      exact getEntry_of_pending hac.pending
    · intro requeue hme
      obtain ⟨_, hac⟩ := hc.each requeue hme
      exact hac.unissued
  | cleared | clearedAll | intent | actionReserved | actionAccepted | consumptionObserved
  | intentWithdrawn =>
    exact ⟨_, rfl, { ha with }⟩
  | withdrawn hd hf held hsa =>
    exact ⟨_, rfl, ha.putNotification held _ hsa.symm rfl rfl⟩
  | resolvedWithoutAction | resolved => exact ⟨_, rfl, { ha.releaseBarrier with }⟩
  | stagedCleared hd had held =>
    obtain ⟨hr, hm, -⟩ := hp.noted held
    exact ⟨_, rfl, (ha.putNotification held (stagedClearedRecord line _) rfl hr hm).releaseBarrier⟩
  | ackTimeout hd had held =>
    obtain ⟨hr, hm, -⟩ := hp.noted held
    exact ⟨_, rfl, { (ha.putNotification held (reconciledRecord line _) rfl hr
      hm).releaseBarrier with }⟩
  | barrierRetired => exact ⟨_, rfl, ha.releaseBarrier⟩

end

end Coherent

variable {rp : Bool}

theorem Coherent.apply (hp : Coherent p) {m : PreparedMutation}
    (h : p.prepareLineInner line rp = .ok m) :
    ∃ q, p.commitLine line m = some q ∧ Coherent q := by
  obtain ⟨hs, -, ha⟩ := accepted_of_prepare h
  exact hp.commit hs ha

theorem Coherent.applies (hp : Coherent p) (h : Applies rp p line q) : Coherent q := by
  obtain ⟨m, hm, hq⟩ := applies_iff.mp h
  obtain ⟨q', hq', hc⟩ := hp.apply hm
  rw [hq, some.injEq] at hq'
  exact hq' ▸ hc

theorem Reachable.coherent {w : WorkspaceId} (h : Reachable w p) : Coherent p := by
  induction h with
  | new => exact .new w
  | apply _ ha ih => exact ih.applies ha

end Cyclops
